import PageTree.Markdown.Cursor
import PageTree.Markdown.Html

/-!
The beginnings of blocks: rules, headings, code fences, list items and the line of hyphens under the
head of a table.
-/

namespace PageTree.Markdown

structure Extensions where
  tables : Bool := false
  footnotes : Bool := false
  strikethrough : Bool := false
  taskLists : Bool := false
  headingAttributes : Bool := false
  deriving DecidableEq

def Extensions.all : Extensions := ⟨true, true, true, true, true⟩

inductive Alignment where
  | none
  | left
  | center
  | right
  deriving DecidableEq

namespace BlockStart

/-- Counts the marks of a rule to the end of the line; the result is their number and the index
after the line. -/
def ruleMarks (s : Source) (mark : Char) : Nat → Nat → Nat → Option (Nat × Nat)
  | 0, _, _ => none
  | steps + 1, i, count =>
    match s.get? i with
    | none => some (count, i)
    | some c =>
      if isLineEnd c then (s.lineEnd? i).map fun next => (count, next)
      else if c = mark then ruleMarks s mark steps (i + 1) (count + 1)
      else if c = ' ' || c = '\t' then ruleMarks s mark steps (i + 1) count
      else none

def rule? (s : Source) (i : Nat) : Option Nat := do
  let mark ← s.get? i
  if !(mark = '*' || mark = '-' || mark = '_') then none
  let (count, next) ← ruleMarks s mark (s.stop - i + 1) i 0
  if 3 ≤ count then some next else none

def heading? (s : Source) (i : Nat) : Option Nat :=
  let level := s.runLength '#' i
  let follows := match s.get? (i + level) with
    | none => true
    | some c => isWhite c
  if 1 ≤ level && level ≤ 6 && follows then some level else none

def underline? (s : Source) (i : Nat) : Option (Nat × Nat) := do
  let mark ← s.get? i
  let level ← if mark = '=' then some 1 else if mark = '-' then some 2 else none
  let next ← s.blankLine? (i + s.runLength mark i)
  return (level, next)

/-- The character and the length of a code fence. A fence of backticks has none after it. -/
def fence? (s : Source) (i : Nat) : Option (Char × Nat) := do
  let mark ← s.get? i
  if !(mark = '~' || mark.toNat = 96) then none
  let length := s.runLength mark i
  if length < 3 then none
  let last := s.nextLine (i + length)
  if mark.toNat = 96 && (s.slice (i + length) last).contains mark then none
  return (mark, length)

def closingFence? (s : Source) (i : Nat) (mark : Char) (length : Nat) : Option Nat :=
  if s.stop ≤ i then some i
  else
    let found := s.runLength mark i
    let last := s.skipWhile (· = ' ') (i + found)
    if length ≤ found && s.atLineEnd last then some last else none

def decimal (cs : List Char) : Nat := Nat.ofDigitChars 10 cs 0

/-- A list item: its mark, the number it starts with, and the columns that its content needs. -/
structure ItemStart where
  mark : Char
  number : Nat
  indent : Nat

def finishItem (s : Source) (c : Cursor) (mark : Char) (number indent : Nat) :
    Cursor × ItemStart :=
  if s.isBlankLine c.ix then (c, ⟨mark, number, indent⟩)
  else
    let (next, columns) := c.indentation s 4
    if columns < 4 then (next, ⟨mark, number, indent + columns⟩) else (c, ⟨mark, number, indent⟩)

def afterMark? (s : Source) (c : Cursor) : Option Cursor :=
  let (next, missing) := c.advance s 1
  if missing = 0 || next.atLineEnd s then some next else none

def bullet? (s : Source) (c : Cursor) (outer : Nat) (mark : Char) : Option (Cursor × ItemStart) :=
  if (rule? s c.ix).isSome then none
  else (afterMark? s { c with ix := c.ix + 1 }).map fun next => finishItem s next mark 0 (outer + 2)

def numbered? (s : Source) (c : Cursor) (outer : Nat) : Option (Cursor × ItemStart) := do
  let last := s.skipWhile Char.isDigit c.ix
  let width := last - c.ix
  if width = 0 || 9 < width then none
  let mark ← s.get? last
  if !(mark = '.' || mark = ')') then none
  let next ← afterMark? s { c with ix := last + 1 }
  return finishItem s next mark (decimal (s.slice c.ix last)) (outer + 2 + width)

def item? (s : Source) (c : Cursor) (outer : Nat) : Option (Cursor × ItemStart) := do
  let mark ← s.get? c.ix
  if mark = '-' || mark = '+' || mark = '*' then bullet? s c outer mark else numbered? s c outer

def itemMark? (s : Source) (i : Nat) : Option (Nat × Char × Nat) := do
  let first ← s.get? i
  let bullet := first = '-' || first = '+' || first = '*'
  let last := if bullet then i else min (s.skipWhile Char.isDigit i) (i + 9)
  if !bullet && last = i then none
  let mark ← s.get? last
  if !(bullet || mark = '.' || mark = ')') then none
  let ended := match s.get? (last + 1) with
    | none => true
    | some c => isLineEnd c || c = ' ' || c = '\t'
  if !ended then none
  return (last + 1, mark, if bullet then 0 else decimal (s.slice i last))

def task? (s : Source) (c : Cursor) : Option (Bool × Cursor) := do
  let (c, _) := c.advance s 3
  if !s.has c.ix '[' then none
  let mark ← s.get? (c.ix + 1)
  let checked ← if isSpace mark then some false
    else if mark = 'x' || mark = 'X' then some true else none
  if !s.has (c.ix + 2) ']' then none
  let next ← s.get? (c.ix + 3)
  if isSpace next then some (checked, { c with ix := c.ix + 3 }) else none

structure Column where
  alignment : Alignment := .none
  begun : Bool := false
  hyphen : Bool := false

namespace Column

def colon (c : Column) : Column :=
  let alignment := match c.begun, c.alignment with
    | false, .none => .left
    | true, .left => .center
    | true, .none => .right
    | _, other => other
  { c with alignment, begun := true }

end Column

def readColumns (s : Source) :
    Nat → Nat → Column → List Alignment → Bool → Option (Nat × List Alignment)
  | 0, _, _, _, _ => none
  | steps + 1, i, column, done, found =>
    let finish (next : Nat) : Option (Nat × List Alignment) :=
      if found then some (next, if column.begun then done ++ [column.alignment] else done) else none
    match s.get? i with
    | none => finish i
    | some c =>
      if isLineEnd c then (s.lineEnd? i).bind finish
      else if c = ' ' then readColumns s steps (i + 1) column done found
      else if c = ':' then readColumns s steps (i + 1) column.colon done found
      else if c = '-' then
        readColumns s steps (i + 1) { column with begun := true, hyphen := true } done true
      else if c = '|' then
        if column.hyphen then readColumns s steps (i + 1) {} (done ++ [column.alignment]) true
        else none
      else none

/-- The line under a table head: the index after it and the alignments of the columns. -/
def tableLine? (s : Source) (i : Nat) : Option (Nat × List Alignment) :=
  let (c, missing) := (Cursor.atStart i).advance s 4
  if missing = 0 || s.stop ≤ c.ix then none
  else
    let first := if s.has c.ix '|' then c.ix + 1 else c.ix
    readColumns s (s.stop - i + 1) first {} [] false

/-- The number of columns in a head with the given number of pipes, the last at `lastPipe`. -/
def headColumns (s : Source) (pipes start lastPipe : Nat) : Nat :=
  let inner := if s.has (s.skipSpaces start) '|' then pipes - 1 else pipes
  if s.isBlankLine (lastPipe + 1) then inner else inner + 1

end BlockStart

end PageTree.Markdown
