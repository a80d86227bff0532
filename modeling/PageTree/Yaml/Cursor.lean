/-!
A place in a YAML text: what is left of the text, and the line and column reached. Lines and columns
count from zero.
-/

namespace PageTree.Yaml

structure Cursor where
  rest : List Char
  index : Nat := 0
  line : Nat := 0
  column : Nat := 0

def isBlank (c : Char) : Bool := c = ' ' || c = '\t'

/-- The line ends, among them those of Unicode. -/
def isBreak (c : Char) : Bool :=
  c = '\n' || c = '\r' || c.toNat = 0x85 || c.toNat = 0x2028 || c.toNat = 0x2029

def isAllowed (c : Char) : Bool :=
  let n := c.toNat
  n = 9 || n = 10 || n = 13 || (32 ≤ n && n ≤ 0x7E) || n = 0x85 || (0xA0 ≤ n && n ≤ 0xFFFD)
    || 0x10000 ≤ n

namespace Cursor

def ofText (text : String) : Cursor := { rest := text.toList }

def peek? (c : Cursor) (offset : Nat) : Option Char := c.rest[offset]?

def at? (c : Cursor) (offset : Nat) (test : Char → Bool) : Bool := (c.peek? offset).any test

def has (c : Cursor) (ch : Char) : Bool := c.rest.head? = some ch

def isEnd (c : Cursor) : Bool := c.rest.isEmpty

def atGap (c : Cursor) (offset : Nat) : Bool :=
  (c.peek? offset).all fun ch => isBlank ch || isBreak ch

def atLineEnd (c : Cursor) : Bool := (c.peek? 0).all isBreak

def skip (c : Cursor) (count : Nat) : Cursor :=
  { c with rest := c.rest.drop count, index := c.index + count, column := c.column + count }

def nextLine (c : Cursor) (width : Nat) : Cursor :=
  ⟨c.rest.drop width, c.index + width, c.line + 1, 0⟩

/-- Goes over a line end and tells what it stands for. Most line ends stand for a line feed. -/
def takeBreak (c : Cursor) : List Char × Cursor :=
  match c.rest with
  | '\r' :: '\n' :: _ => (['\n'], c.nextLine 2)
  | ch :: _ =>
    if ch.toNat = 0x2028 || ch.toNat = 0x2029 then ([ch], c.nextLine 1)
    else if isBreak ch then (['\n'], c.nextLine 1)
    else ([], c)
  | [] => ([], c)

def skipBreak (c : Cursor) : Cursor := c.takeBreak.2

def takeWhile (c : Cursor) (test : Char → Bool) : List Char × Cursor :=
  let taken := c.rest.takeWhile test
  (taken, c.skip taken.length)

def skipWhile (c : Cursor) (test : Char → Bool) : Cursor := (c.takeWhile test).2

def skipComment (c : Cursor) : Cursor :=
  if c.has '#' then c.skipWhile fun ch => !isBreak ch else c

/-- Whether a mark between documents stands here: three of a character at the start of a line. -/
def atDocumentMark (c : Cursor) (ch : Char) : Bool :=
  c.column = 0 && c.rest.take 3 = [ch, ch, ch] && c.atGap 3

def atAnyDocumentMark (c : Cursor) : Bool := c.atDocumentMark '-' || c.atDocumentMark '.'

end Cursor

abbrev Scan (α : Type) := Cursor → Option (α × Cursor)

end PageTree.Yaml
