import PageTree.Yaml.Scalar
import PageTree.Yaml.Tag

/-!
The tokens of a YAML text in order. A key is known as one only when the colon after it is met, so the
scanner remembers for each open collection where a key may have started, and puts the token for the
key in front of the tokens that were read since.
-/

namespace PageTree.Yaml

/-- A place where a key may have started: the number of tokens before it, whether nothing but a key
may stand there, and where it is in the text. -/
structure KeyStart where
  number : Nat
  required : Bool
  index : Nat
  line : Nat
  column : Nat

/-- The state between two tokens. `indent` is the column of the innermost collection that is written
by indentation and `outer` has those around it; `keyStarts` has one place for each open bracket, in
front of that outside of all brackets. -/
structure Scanner where
  place : Cursor
  indent : Int := -1
  outer : List Int := []
  keyStart : Option KeyStart := none
  outerStarts : List (Option KeyStart) := []
  keyAllowed : Bool := true
  tokens : Array Token := #[]

namespace Scanner

def inFlow (s : Scanner) : Bool := !s.outerStarts.isEmpty

def push (s : Scanner) (token : Token) : Scanner := { s with tokens := s.tokens.push token }

def insert (s : Scanner) (number : Nat) (token : Token) : Scanner :=
  { s with tokens := s.tokens.insertIdxIfInBounds number token }

def take (s : Scanner) (width : Nat) (token : Token) : Scanner :=
  { s with place := s.place.skip width }.push token

def read (s : Scanner) (scan : Scan Token) : Option Scanner := do
  let (token, place) ← scan s.place
  return { s with place }.push token

def allowKey (s : Scanner) (keyAllowed : Bool) : Scanner := { s with keyAllowed }

def dropKeyStart (s : Scanner) : Option Scanner :=
  match s.keyStart with
  | some start => if start.required then none else some { s with keyStart := none }
  | none => some s

def markKeyStart (s : Scanner) : Option Scanner :=
  if !s.keyAllowed then some s
  else do
    let required := !s.inFlow && s.indent = s.place.column
    let start : KeyStart :=
      ⟨s.tokens.size, required, s.place.index, s.place.line, s.place.column⟩
    let s ← s.dropKeyStart
    return { s with keyStart := some start }

/-- A key must end on the line on which it starts, and within 1024 characters. -/
def freshStart (c : Cursor) : Option KeyStart → Option (Option KeyStart)
  | none => some none
  | some start =>
    if start.line < c.line || start.index + 1024 < c.index then
      if start.required then none else some none
    else some (some start)

def dropStaleStarts (s : Scanner) : Option Scanner := do
  let keyStart ← freshStart s.place s.keyStart
  let outerStarts ← s.outerStarts.mapM (freshStart s.place)
  return { s with keyStart, outerStarts }

/-- Opens a collection if the column lies deeper than the innermost one. Its token comes last, or
before the token with the given number. -/
def openBlock (s : Scanner) (column : Nat) (number : Option Nat) (token : Token) : Scanner :=
  if s.inFlow || (column : Int) ≤ s.indent then s
  else
    let s := { s with indent := column, outer := s.indent :: s.outer }
    match number with
    | some number => s.insert number token
    | none => s.push token

def closeLoop (column : Int) (tokens : Array Token) (indent : Int) : List Int → Scanner → Scanner
  | [], s => { s with tokens, indent, outer := [] }
  | next :: rest, s =>
    if column < indent then closeLoop column (tokens.push .blockEnd) next rest s
    else { s with tokens, indent, outer := next :: rest }

def closeBlocks (s : Scanner) (column : Int) : Scanner :=
  if s.inFlow then s else closeLoop column s.tokens s.indent s.outer s

/-- Goes over blanks, comments and line ends. A tab counts as a blank only where no key may start. -/
def skipGaps : Nat → Scanner → Scanner
  | 0, s => s
  | steps + 1, s =>
    let blank (ch : Char) : Bool := ch = ' ' || (ch = '\t' && (s.inFlow || !s.keyAllowed))
    let c := if s.place.column = 0 && s.place.at? 0 (·.toNat = 0xFEFF) then s.place.skip 1
      else s.place
    let c := (c.skipWhile blank).skipComment
    if c.at? 0 isBreak then
      skipGaps steps { s with place := c.skipBreak, keyAllowed := s.keyAllowed || !s.inFlow }
    else { s with place := c }

def advance (s : Scanner) : Option Scanner := do
  let s ← (skipGaps (s.place.rest.length + 1) s).dropStaleStarts
  return s.closeBlocks s.place.column

def leaveDocument (s : Scanner) : Option Scanner := do
  return (← (s.closeBlocks (-1)).dropKeyStart).allowKey false

def readNode (s : Scanner) (scan : Scan Token) : Option Scanner := do
  ((← s.markKeyStart).allowKey false).read scan

def openFlow (s : Scanner) (token : Token) : Option Scanner := do
  let s ← s.markKeyStart
  let outerStarts := s.keyStart :: s.outerStarts
  return { s with keyStart := none, outerStarts, keyAllowed := true }.take 1 token

def closeFlow (s : Scanner) (token : Token) : Option Scanner := do
  let s := (← s.dropKeyStart).allowKey false
  match s.outerStarts with
  | keyStart :: outerStarts => return { s with keyStart, outerStarts }.take 1 token
  | [] => return s.take 1 token

def flowEntry (s : Scanner) : Option Scanner := do
  return ((← s.dropKeyStart).allowKey true).take 1 .flowEntry

/-- A mark that opens a collection or continues it, outside of brackets only where a key may
start. -/
def blockMark (s : Scanner) (opening token : Token) (keyAllowed : Bool) : Option Scanner := do
  if !s.inFlow && !s.keyAllowed then none
  let s ← (s.openBlock s.place.column none opening).dropKeyStart
  return (s.allowKey keyAllowed).take 1 token

/-- The colon after a key, or before a value whose key was marked or is missing. -/
def valueMark (s : Scanner) : Option Scanner :=
  match s.keyStart with
  | some start =>
    let s := (s.insert start.number .key).openBlock start.column (some start.number)
      .blockMappingStart
    some ({ s with keyStart := none, keyAllowed := false }.take 1 .value)
  | none => s.blockMark .blockMappingStart .value (!s.inFlow)

def blockText (s : Scanner) (literal : Bool) : Option Scanner := do
  let s := (← s.dropKeyStart).allowKey true
  s.read fun c => do
    let (text, c) ← blockScalar literal s.indent (c.skip 1)
    return (.scalar false text, c)

def quotedText (s : Scanner) (single : Bool) : Option Scanner :=
  s.readNode fun c => do
    let (text, c) ← quotedScalar single (c.skip 1)
    return (.scalar false text, c)

def plainText (s : Scanner) : Option Scanner := do
  let s := (← s.markKeyStart).allowKey false
  let ((text, broken), place) ← plainScalar s.inFlow (s.indent + 1) s.place
  return { s with place, keyAllowed := broken }.push (.scalar true text)

def isPlainStart (ch : Char) : Bool :=
  !(isBlank ch || isBreak ch || ch.toNat = 96 || "-?:,[]\x7b\x7d#&*!|>'\"%@".toList.contains ch)

def startsPlain (s : Scanner) (ch : Char) : Bool :=
  isPlainStart ch || (ch = '-' && !s.place.at? 1 isBlank)
    || (!s.inFlow && (ch = '?' || ch = ':') && !s.place.atGap 1)

def readAt (s : Scanner) (ch : Char) : Option Scanner :=
  let c := s.place
  let marks := s.inFlow || c.atGap 1
  if c.column = 0 && ch = '%' then do
    (← s.leaveDocument).read fun c => directive (c.skip 1)
  else if c.atDocumentMark '-' then return (← s.leaveDocument).take 3 .documentStart
  else if c.atDocumentMark '.' then return (← s.leaveDocument).take 3 .documentEnd
  else if ch = '[' then s.openFlow .flowSequenceStart
  else if ch = '\x7b' then s.openFlow .flowMappingStart
  else if ch = ']' then s.closeFlow .flowSequenceEnd
  else if ch = '\x7d' then s.closeFlow .flowMappingEnd
  else if ch = ',' then s.flowEntry
  else if ch = '-' && c.atGap 1 then s.blockMark .blockSequenceStart .blockEntry true
  else if ch = '?' && marks then s.blockMark .blockMappingStart .key (!s.inFlow)
  else if ch = ':' && marks then s.valueMark
  else if ch = '*' then
    s.readNode fun c => (anchorName (c.skip 1)).map fun (name, c) => (.alias name, c)
  else if ch = '&' then
    s.readNode fun c => (anchorName (c.skip 1)).map fun (name, c) => (.anchor name, c)
  else if ch = '!' then s.readNode (tagToken s.inFlow)
  else if ch = '|' && !s.inFlow then s.blockText true
  else if ch = '>' && !s.inFlow then s.blockText false
  else if ch = '\'' then s.quotedText true
  else if ch = '"' then s.quotedText false
  else if s.startsPlain ch then s.plainText
  else none

def run : Nat → Scanner → Option (Array Token)
  | 0, _ => none
  | steps + 1, s => do
    let s ← s.advance
    match s.place.peek? 0 with
    | some ch => run steps (← s.readAt ch)
    | none => return (← s.leaveDocument).tokens

end Scanner

def tokens? (text : String) : Option (List Token) := do
  let place := Cursor.ofText text
  let tokens ← Scanner.run (place.rest.length + 2) { place }
  return tokens.toList

end PageTree.Yaml
