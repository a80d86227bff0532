import PageTree.Markdown.Autolink
import PageTree.Markdown.Definition

/-!
Code, HTML and links. The pieces of a block are gone through from left to right; code spans, HTML and
addresses in angles take effect at once, and brackets wait on a stack for the bracket that closes
them. A label without a definition stands for itself. What does not fit is plain text.
-/

namespace PageTree.Markdown

inductive Opening where
  | link
  | image
  | disabled
  deriving DecidableEq

/-- A bracket that is still open, and its place among the finished pieces. -/
structure OpenBracket where
  place : Nat
  opening : Opening

structure InlineState where
  done : Array Inline := #[]
  brackets : List OpenBracket := []

structure InlineReader where
  /-- The source up to the end of the block. -/
  source : Source
  spine : List Container
  inTable : Bool
  extensions : Extensions
  definitions : Definitions

namespace InlineReader

def plain (piece : Inline) : Inline := { piece with mark := .text false }

def push (st : InlineState) (piece : Inline) : InlineState := { st with done := st.done.push piece }

/-- The pieces that reach beyond `i`; the first of them begins there at the earliest. -/
def behind (i : Nat) : List Inline → List Inline
  | [] => []
  | piece :: rest =>
    if piece.stop ≤ i then behind i rest else { piece with start := max piece.start i } :: rest

def firstBehind? (i : Nat) (pieces : List Inline) : Option Inline :=
  pieces.find? fun piece => !(piece.stop ≤ i)

/-- The content of a code span: a line end and the marks of containers after it become one space,
and in a table a backslash before a pipe goes. -/
def codeContent (r : InlineReader) (full : Source) : Nat → Nat → Nat → List Char
  | 0, _, _ => []
  | steps + 1, i, stop =>
    if stop ≤ i then []
    else
      match full.get? i with
      | none => []
      | some c =>
        if isLineEnd c then
          ' ' :: codeContent r full steps (skipContainers full r.spine (i + 1)) stop
        else if c = '\\' && r.inTable && full.has (i + 1) '|' then
          '|' :: codeContent r full steps (i + 2) stop
        else c :: codeContent r full steps (i + 1) stop

/-- One space at both ends of a code span goes, unless there is nothing but spaces. -/
def codeText (r : InlineReader) (start stop : Nat) : List Char :=
  let content := r.codeContent r.source (stop - start + 1) start stop
  if content.head? = some ' ' && content.getLast? = some ' ' && !content.all (· = ' ') then
    content.tail.dropLast
  else content

def closingTicks? (count : Nat) : List Inline → Option (Inline × List Inline)
  | [] => none
  | piece :: rest =>
    match piece.mark with
    | .backticks n _ => if n = count then some (piece, rest) else closingTicks? count rest
    | _ => closingTicks? count rest

def readTicks (r : InlineReader) (st : InlineState) (piece : Inline) (count : Nat)
    (afterBackslash : Bool) (rest : List Inline) : InlineState × List Inline :=
  let wanted := if afterBackslash then count - 1 else count
  match if wanted = 0 then none else closingTicks? wanted rest with
  | none => (push st (plain piece), rest)
  | some (close, rest) =>
    let code := Mark.code (r.codeText piece.stop close.start)
    if afterBackslash then
      let tick : Inline :=
        { mark := .text true, start := piece.start, stop := piece.start + 1 }
      (push (push st tick) { mark := code, start := piece.start + 1, stop := close.stop }, rest)
    else (push st { mark := code, start := piece.start, stop := close.stop }, rest)

def readAngle (r : InlineReader) (st : InlineState) (piece : Inline) (rest : List Inline) :
    InlineState × List Inline :=
  let s := r.source
  match Autolink.at? s piece.stop with
  | some (last, form) =>
    let text : Inline := { mark := .text false, start := piece.start + 1, stop := last }
    (push st {
      mark := .link form (s.text piece.stop last) ""
      start := piece.start
      stop := last + 1
      children := [text] }, behind (last + 1) rest)
  | none =>
    match Html.inline? s r.spine piece.start with
    | some (last, content) =>
      (push st { mark := .html content, start := piece.start, stop := last }, behind last rest)
    | none => (push st (plain piece), rest)

def skipSeparator (r : InlineReader) (i : Nat) : Nat :=
  let s := r.source
  let i := s.skipSpaces i
  match s.lineEnd? i with
  | some next => s.skipSpaces (skipContainers s r.spine next)
  | none => i

/-- The text of a title up to its closing mark. A new line goes on where its first piece begins. -/
def titleText (r : InlineReader) (opening close : Char) (pieces : List Inline) :
    Nat → Nat → List Char → Option (Nat × List Char)
  | 0, _, _ => none
  | steps + 1, i, done =>
    let s := r.source
    match s.get? i with
    | none => none
    | some c =>
      if c = close then some (i + 1, done)
      else if c = opening then none
      else if isLineEnd c then
        match firstBehind? (i + 1) pieces with
        | some piece =>
          if i < piece.start then titleText r opening close pieces steps piece.start (done ++ ['\n'])
          else titleText r opening close pieces steps (i + 1) (done ++ [c])
        | none => titleText r opening close pieces steps (i + 1) (done ++ [c])
      else if c = '&' then
        match CharacterReference.at? s i with
        | some (next, meant) => titleText r opening close pieces steps next (done ++ meant)
        | none => titleText r opening close pieces steps (i + 1) (done ++ [c])
      else if c = '\\' then
        if r.inTable && s.has (i + 1) '\\' && s.has (i + 2) '|' then
          titleText r opening close pieces steps (i + 3) (done ++ ['|'])
        else
          match s.get? (i + 1) with
          | some next =>
            if Ascii.isPunctuation next then
              titleText r opening close pieces steps (i + 2) (done ++ [next])
            else titleText r opening close pieces steps (i + 1) (done ++ [c])
          | none => titleText r opening close pieces steps (i + 1) (done ++ [c])
      else titleText r opening close pieces steps (i + 1) (done ++ [c])

def title? (r : InlineReader) (i : Nat) (pieces : List Inline) : Option (Nat × List Char) := do
  let opening ← r.source.get? i
  let close ← BlockReader.closingMark? opening
  r.titleText opening close pieces (r.source.stop + 1) (i + 1) []

def targetNesting : Nat := 32

def inlineTarget? (r : InlineReader) (i : Nat) (pieces : List Inline) :
    Option (Nat × String × String) := do
  let s := r.source
  if !s.has i '(' then none
  let start := r.skipSeparator (i + 1)
  let (targetEnd, target) ← linkTarget? s targetNesting start
  let target := unescape r.inTable target
  let i := r.skipSeparator targetEnd
  let (i, title) := match r.title? i pieces with
    | some (next, title) => (r.skipSeparator next, String.ofList title)
    | none => (i, "")
  if s.has i ')' then some (i + 1, target, title) else none

inductive Label where
  | link (label : String)
  | footnote (label : String)

def label? (r : InlineReader) (source : Source) (i : Nat) : Option (Nat × Label) :=
  if !source.has i '[' then none
  else
    let ordinary := (Markdown.Label.read source r.inTable
      (fun next => some (skipContainers source r.spine next)) (i + 1)).map
        fun (last, label) => (last, Label.link label)
    if r.extensions.footnotes && source.has (i + 1) '^' && !source.has (i + 2) ']' then
      match Markdown.Label.read source r.inTable (fun _ => none) (i + 2) with
      | some (last, label) => some (last, .footnote label)
      | none => ordinary
    else ordinary

inductive Follow where
  | label (last : Nat) (label : String)
  | empty (rest : List Inline)
  | nothing

def follow (r : InlineReader) (rest : List Inline) : Follow :=
  match rest with
  | [] => .nothing
  | next :: others =>
    match next.mark with
    | .text true => .nothing
    | _ =>
      if r.source.startsWith next.start ['[', ']'] then .empty (others.drop 1)
      else
        match r.label? r.source next.start with
        | some (last, .link label) => .label last label
        | _ => .nothing

def unknownForm : LinkForm → LinkForm
  | .reference => .unknownReference
  | .collapsed => .unknownCollapsed
  | .shortcut => .unknownShortcut
  | other => other

/-- The form, target and title for a label, which stands for itself if nothing defines it. -/
def resolve (r : InlineReader) (form : LinkForm) (label : String) : LinkForm × String × String :=
  match r.definitions.link? label with
  | some link => (form, link.target, link.title)
  | none => (unknownForm form, label, "")

def disableLinks (brackets : List OpenBracket) : List OpenBracket :=
  brackets.map fun b => if b.opening = .link then { b with opening := .disabled } else b

def wrap (st : InlineState) (bracket : OpenBracket) (brackets : List OpenBracket)
    (form : LinkForm) (target title : String) (stop : Nat) : InlineState :=
  let start := (st.done[bracket.place]?.map Inline.start).getD stop
  let isImage := bracket.opening = .image
  let mark := if isImage then Mark.image form target title else .link form target title
  let children := (st.done.extract (bracket.place + 1) st.done.size).toList
  { done := (st.done.extract 0 bracket.place).push { mark, start, stop, children }
    brackets := if isImage then brackets else disableLinks brackets }

def wrapLabel (r : InlineReader) (st : InlineState) (bracket : OpenBracket)
    (brackets : List OpenBracket) (form : LinkForm) (label : String) (stop : Nat) : InlineState :=
  let (form, target, title) := r.resolve form label
  wrap st bracket brackets form target title stop

/-- Makes a footnote reference of the pieces from an open bracket on. The exclamation mark of an
image does not belong to it. -/
def wrapFootnote (st : InlineState) (bracket : OpenBracket) (label : String) (stop : Nat) :
    InlineState :=
  let start := (st.done[bracket.place]?.map Inline.start).getD stop
  let before := st.done.extract 0 bracket.place
  let done :=
    if bracket.opening = .image then
      (before.push { mark := .literal ['!'], start, stop := start + 1 }).push
        { mark := .footnoteReference label, start := start + 1, stop }
    else before.push { mark := .footnoteReference label, start, stop }
  { done, brackets := [] }

/-- Makes a link of a bracket whose own content is the label, or leaves it as text. -/
def closeByContent (r : InlineReader) (st : InlineState) (bracket : OpenBracket)
    (brackets : List OpenBracket) (piece : Inline) (form : LinkForm) (rest after : List Inline) :
    InlineState × List Inline :=
  let text := ({ st with brackets } : InlineState)
  let start := (st.done[bracket.place]?.map fun p => p.stop - 1).getD piece.start
  match r.label? (r.source.upTo piece.stop) start with
  | some (last, found) =>
    if last ≠ piece.stop then (push text (plain piece), rest)
    else
      match found with
      | .link label => (r.wrapLabel st bracket brackets form label last, after)
      | .footnote label =>
        if r.definitions.hasFootnote label then (wrapFootnote st bracket label last, rest)
        else (push text (plain piece), rest)
  | none => (push text (plain piece), rest)

def afterLabel (last : Nat) (rest : List Inline) : Option (List Inline) :=
  match rest.dropWhile fun piece => piece.stop ≤ last - 1 with
  | [] => none
  | _ :: after => some after

def closeBracket (r : InlineReader) (st : InlineState) (piece : Inline) (mayRefer : Bool)
    (rest : List Inline) : InlineState × List Inline :=
  match st.brackets with
  | [] => (push st (plain piece), rest)
  | bracket :: brackets =>
    let text := push { st with brackets } (plain piece)
    if bracket.opening = .disabled then (text, rest)
    else
      match r.inlineTarget? piece.stop rest with
      | some (last, target, title) =>
        (wrap st bracket brackets .inline target title last, behind last rest)
      | none =>
        match r.follow rest with
        | .label last label =>
          match afterLabel last rest with
          | some after => (r.wrapLabel st bracket brackets .reference label last, after)
          | none => (text, rest)
        | .empty after =>
          if mayRefer then r.closeByContent st bracket brackets piece .collapsed rest after
          else (text, rest)
        | .nothing =>
          if mayRefer then r.closeByContent st bracket brackets piece .shortcut rest rest
          else (text, rest)

def openBracket (st : InlineState) (piece : Inline) (opening : Opening) : InlineState :=
  { done := st.done.push (plain piece)
    brackets := ⟨st.done.size, opening⟩ :: st.brackets }

def step (r : InlineReader) (st : InlineState) (piece : Inline) (rest : List Inline) :
    InlineState × List Inline :=
  match piece.mark with
  | .angle => r.readAngle st piece rest
  | .backticks count afterBackslash => r.readTicks st piece count afterBackslash rest
  | .openBracket => (openBracket st piece .link, rest)
  | .openImage => (openBracket st piece .image, rest)
  | .closeBracket mayRefer => r.closeBracket st piece mayRefer rest
  | _ => (push st piece, rest)

def loop (r : InlineReader) : Nat → InlineState → List Inline → List Inline
  | 0, st, pieces => st.done.toList ++ pieces
  | _ + 1, st, [] => st.done.toList
  | steps + 1, st, piece :: rest =>
    let (st, rest) := r.step st piece rest
    loop r steps st rest

def read (r : InlineReader) (pieces : List Inline) : List Inline :=
  r.loop (pieces.length + 1) {} pieces

end InlineReader

end PageTree.Markdown
