import PageTree.Markdown.Block
import PageTree.Markdown.CharacterReference
import PageTree.Markdown.Interrupt

/-!
Definitions of link labels: a label in brackets, a colon, a target and perhaps a title, with at most
one line end before the target and before the title.
-/

namespace PageTree.Markdown

/-- The end of a link target at `i` and its text, which is still escaped. The target stands between
angles or has only balanced parentheses, nested at most `nesting` deep beyond the first. -/
def readTarget (s : Source) (nesting : Nat) (start : Nat) : Nat → Nat → Nat → Option Nat
  | 0, _, _ => none
  | steps + 1, i, depth =>
    match s.get? i with
    | none => if depth = 0 then some i else none
    | some c =>
      if c.toNat ≤ 32 then if depth = 0 then some i else none
      else if c = '(' then
        if nesting < depth then none else readTarget s nesting start steps (i + 1) (depth + 1)
      else if c = ')' then
        if depth = 0 then some i else readTarget s nesting start steps (i + 1) (depth - 1)
      else if c = '\\' && isPunctuationAt s (i + 1) then readTarget s nesting start steps (i + 2) depth
      else readTarget s nesting start steps (i + 1) depth

def readAngled (s : Source) : Nat → Nat → Option Nat
  | 0, _ => none
  | steps + 1, i =>
    match s.get? i with
    | none => none
    | some c =>
      if isLineEnd c || c = '<' then none
      else if c = '>' then some i
      else if c = '\\' && isPunctuationAt s (i + 1) then readAngled s steps (i + 2)
      else readAngled s steps (i + 1)

def linkTarget? (s : Source) (nesting i : Nat) : Option (Nat × List Char) :=
  if s.has i '<' then
    (readAngled s (s.stop - i + 1) (i + 1)).map fun last => (last + 1, s.slice (i + 1) last)
  else
    (readTarget s nesting i (s.stop - i + 1) i 0).map fun last => (last, s.slice i last)

namespace BlockReader

/-- The end of the blanks at `i`, with at most one line end, and the number of line ends. -/
def definitionSpace? (r : BlockReader) (spine : List Container) (i : Nat) : Option (Nat × Nat) := do
  let i := r.source.skipSpaces i
  match r.source.lineEnd? i with
  | none => return (i, 0)
  | some next =>
    let inner ← r.resume? spine next
    let inner := r.source.skipSpaces inner
    if r.source.atLineEnd inner then none else some (inner, 1)

def definitionTitle (r : BlockReader) (spine : List Container) (close : Char) :
    Nat → Nat → List Char → Option (Nat × List Char)
  | 0, _, _ => none
  | steps + 1, i, done =>
    let s := r.source
    match s.get? i with
    | none => none
    | some c =>
      if c = '(' && close = ')' then none
      else if isLineEnd c then do
        let next ← s.lineEnd? i
        let inner := s.skipWhile (fun ch => ch = ' ' || ch = '\t') (← r.resume? spine next)
        if s.isBlankLine inner then none
        definitionTitle r spine close steps inner (done ++ ['\n'])
      else if c = '\\' then
        match s.get? (i + 1) with
        | some next =>
          if isLineEnd next then definitionTitle r spine close steps (i + 1) (done ++ [c])
          else definitionTitle r spine close steps (i + 2) (done ++ [c, next])
        | none => none
      else if c = close then some (i + 1, done)
      else definitionTitle r spine close steps (i + 1) (done ++ [c])

def closingMark? (c : Char) : Option Char :=
  if c = '"' || c = '\'' then some c else if c = '(' then some ')' else none

def definitionTitle? (r : BlockReader) (spine : List Container) (i : Nat) :
    Option (Nat × List Char) := do
  let close ← closingMark? (← r.source.get? i)
  r.definitionTitle spine close (r.source.stop - i + 1) (i + 1) []

/-- The target and title of a definition whose colon ends before `i`. A title that does not fit is
left out if it stands on a line of its own. -/
def definitionBody? (r : BlockReader) (spine : List Container) (i : Nat) :
    Option (Nat × LinkDefinition) := do
  let s := r.source
  let (start, _) ← r.definitionSpace? spine i
  let (targetEnd, target) ← linkTarget? s 1 start
  if targetEnd = start then none
  let target := unescape false target
  let plain : Nat × LinkDefinition := (targetEnd, ⟨target, ""⟩)
  match r.definitionSpace? spine targetEnd with
  | none => return plain
  | some (titleStart, lines) =>
    if titleStart = targetEnd && lines = 0 then none
    match r.definitionTitle? spine titleStart with
    | some (titleEnd, title) =>
      if s.isBlankLine titleEnd then return (titleEnd, ⟨target, unescape false title⟩)
      else if 0 < lines then return plain
      else none
    | none => if 0 < lines then return plain else none

def definition? (r : BlockReader) (spine : List Container) (i : Nat) :
    Option (Nat × String × LinkDefinition) := do
  if !r.source.has i '[' then none
  let (last, label) ← Label.read r.source false (r.resume? spine) (i + 1)
  if !r.source.has last ':' then none
  let (last, definition) ← r.definitionBody? spine (last + 1)
  return (last, label, definition)

end BlockReader

end PageTree.Markdown
