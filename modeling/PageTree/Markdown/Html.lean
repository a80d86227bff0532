import PageTree.Markdown.Cursor
import PageTree.Text.Ascii

/-!
HTML in a Markdown text: tags, comments, processing instructions, declarations and CDATA sections
within a line of text, and the ways in which a line begins a block of HTML.
-/

namespace PageTree.Markdown.Html

/-- A tag being read. The marks of containers at the start of its later lines do not belong to it:
`kept` is what was read before the last such mark, and `mark` the place after it. -/
structure Tag where
  ix : Nat
  mark : Nat
  kept : List Char := []

namespace Tag

def goTo (t : Tag) (i : Nat) : Tag := { t with ix := i }

def nextLine? (s : Source) (spine : Option (List Container)) (t : Tag) (next : Nat) :
    Option Tag :=
  spine.map fun spine =>
    let inner := skipContainers s spine next
    if next < inner then ⟨inner, inner, t.kept ++ s.slice t.mark next⟩ else t.goTo next

def skipWhite (s : Source) (spine : Option (List Container)) : Nat → Tag → Option Tag
  | 0, t => some t
  | steps + 1, t =>
    match s.get? t.ix with
    | none => some t
    | some c =>
      if isLineEnd c then do
        let next ← s.lineEnd? t.ix
        skipWhite s spine steps (← t.nextLine? s spine next)
      else if isSpace c then skipWhite s spine steps (t.goTo (t.ix + 1))
      else some t

def isNameStart (c : Char) : Bool := Ascii.isLetter c || c = '_' || c = ':'

def isNamePart (c : Char) : Bool := isNameStart c || c.isDigit || c = '.' || c = '-'

def isBareValue (c : Char) : Bool :=
  !(isWhite c || c = '"' || c = '\'' || c = '=' || c = '<' || c = '>' || c.toNat = 96)

def skipQuoted (s : Source) (spine : Option (List Container)) (quote : Char) :
    Nat → Tag → Option Tag
  | 0, _ => none
  | steps + 1, t =>
    match s.get? t.ix with
    | none => none
    | some c =>
      if c = quote then some (t.goTo (t.ix + 1))
      else if isLineEnd c then do
        let next ← s.lineEnd? t.ix
        skipQuoted s spine quote steps (← t.nextLine? s spine next)
      else skipQuoted s spine quote steps (t.goTo (t.ix + 1))

def skipValue? (s : Source) (spine : Option (List Container)) (t : Tag) : Option Tag :=
  match s.get? t.ix with
  | none => none
  | some c =>
    if c = '"' || c = '\'' then skipQuoted s spine c (s.stop + 1) (t.goTo (t.ix + 1))
    else
      let last := s.skipWhile isBareValue t.ix
      if t.ix < last then some (t.goTo last) else none

def skipAttribute? (s : Source) (spine : Option (List Container)) (t : Tag) : Option Tag :=
  match s.get? t.ix with
  | none => none
  | some c =>
    if isNameStart c then do
      let named := t.goTo (s.skipWhile isNamePart t.ix)
      let ahead ← named.skipWhite s spine (s.stop + 1)
      if s.has ahead.ix '=' then
        let valued ← (ahead.goTo (ahead.ix + 1)).skipWhite s spine (s.stop + 1)
        valued.skipValue? s spine
      else some named
    else none

def skipAttributes (s : Source) (spine : Option (List Container)) : Nat → Tag → Option Tag
  | 0, _ => none
  | steps + 1, t => do
    let ahead ← t.skipWhite s spine (s.stop + 1)
    match s.get? ahead.ix with
    | none => none
    | some c =>
      if c = '/' || c = '>' then some ahead
      else if ahead.ix = t.ix then none
      else skipAttributes s spine steps (← ahead.skipAttribute? s spine)

end Tag

/-- The tag at `i`: the index after it and its text, if marks of containers were left out of it. A
tag goes on in other lines only within given containers. -/
def tag? (s : Source) (spine : Option (List Container)) (i : Nat) :
    Option (Nat × Option (List Char)) := do
  let closing := s.has (i + 1) '/'
  let nameStart := if closing then i + 2 else i + 1
  let nameStop := s.skipWhile Ascii.isLetter nameStart
  if nameStop = nameStart then none
  let nameStop := s.skipWhile (fun c => Ascii.isAlphanumeric c || c = '-') nameStop
  let t : Tag := ⟨nameStop, i, []⟩
  let t ← if closing then some t else t.skipAttributes s spine (s.stop + 1)
  let last := s.skipSpaces t.ix
  let last := if !closing && s.has last '/' then last + 1 else last
  if s.has last '>' then
    let text := if t.kept.isEmpty then none else some (t.kept ++ s.slice t.mark (last + 1))
    some (last + 1, text)
  else none

def after? (s : Source) (pattern : List Char) : Nat → Nat → Option Nat
  | 0, _ => none
  | steps + 1, i =>
    if s.stop ≤ i then none
    else if s.startsWith i pattern then some (i + pattern.length)
    else after? s pattern steps (i + 1)

def find? (s : Source) (pattern : List Char) (i : Nat) : Option Nat :=
  after? s pattern (s.stop - i + 1) i

def commentEnd? (s : Source) (i : Nat) : Option Nat :=
  if s.has i '>' then some (i + 1)
  else if s.startsWith i ['-', '>'] then some (i + 2)
  else find? s ['-', '-', '>'] i

/-- The end of a CDATA section, which ends at its first run of closing brackets. -/
def sectionEnd? (s : Source) (i : Nat) : Option Nat :=
  let first := s.skipWhile (· ≠ ']') i
  let last := s.skipWhile (· = ']') first
  if first < last && s.has last '>' then some (last + 1) else none

def declaration? (s : Source) (i : Nat) : Option Nat :=
  match s.get? i with
  | some c =>
    if c = '-' then if s.has (i + 1) '-' then commentEnd? s (i + 2) else none
    else if s.startsWith i "[CDATA[".toList then sectionEnd? s (i + 7)
    else if Ascii.isLetter c then find? s ['>'] i
    else none
  | none => none

def inline? (s : Source) (spine : List Container) (i : Nat) : Option (Nat × Option (List Char)) :=
  if s.has (i + 1) '!' then (declaration? s (i + 2)).map fun last => (last, none)
  else if s.has (i + 1) '?' then (find? s ['?', '>'] (i + 2)).map fun last => (last, none)
  else tag? s (some spine) i

def lowered (s : Source) (start stop : Nat) : List Char := (s.slice start stop).map Ascii.lower

def rawNames : List String := ["pre", "style", "script", "textarea"]

def rawEnd? (s : Source) (i : Nat) : List String → Option (List Char)
  | [] => none
  | name :: others =>
    let last := i + name.length
    let follows := match s.get? last with
      | none => true
      | some c => isWhite c || c = '>'
    if last ≤ s.stop && lowered s i last = name.toList && follows then
      some ("</".toList ++ name.toList ++ ['>'])
    else rawEnd? s i others

def blockEnd? (s : Source) (i : Nat) : Option (List Char) :=
  match rawEnd? s i rawNames with
  | some text => some text
  | none =>
    if s.startsWith i "!--".toList then some "-->".toList
    else if s.has i '?' then some "?>".toList
    else if s.startsWith i "![CDATA[".toList then some "]]>".toList
    else if s.has i '!' && ((s.get? (i + 1)).any Ascii.isLetter) then some ['>']
    else none

def blockNames : List String :=
  ["address", "article", "aside", "base", "basefont", "blockquote", "body", "caption", "center",
    "col", "colgroup", "dd", "details", "dialog", "dir", "div", "dl", "dt", "fieldset",
    "figcaption", "figure", "footer", "form", "frame", "frameset", "h1", "h2", "h3", "h4", "h5",
    "h6", "head", "header", "hr", "html", "iframe", "legend", "li", "link", "main", "menu",
    "menuitem", "nav", "noframes", "ol", "optgroup", "option", "p", "param", "search", "section",
    "summary", "table", "tbody", "td", "tfoot", "th", "thead", "title", "tr", "track", "ul"]

def namesBlock (s : Source) (i : Nat) : Bool :=
  let start := if s.has i '/' then i + 1 else i
  let stop := s.skipWhile Ascii.isAlphanumeric start
  let ends := match s.get? stop with
    | none => true
    | some c => isWhite c || c = '>' || s.startsWith stop ['/', '>']
  ends && blockNames.contains (String.ofList (lowered s start stop))

def standsAlone (s : Source) (i : Nat) : Bool :=
  match tag? s none i with
  | some (last, _) => s.isBlankLine last
  | none => false

end PageTree.Markdown.Html
