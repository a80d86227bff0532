import PageTree.Tree.Node

/-!
The lines of a text with the bytes at which they start. A byte offset has a line and a column; both
count from one, and columns count characters.
-/

namespace PageTree.Markdown

structure SourceLine where
  start : Nat
  chars : List Char

structure LineIndex where
  lines : List SourceLine

namespace LineIndex

def byteLength (cs : List Char) : Nat := cs.foldr (fun c bytes => c.utf8Size + bytes) 0

/-- Cuts a text after each line feed. The line that is being read is kept in reverse. -/
def splitLines (start : Nat) (line : List Char) : List Char → List SourceLine
  | [] => [⟨start, line.reverse⟩]
  | c :: cs =>
    if c = '\n' then
      ⟨start, (c :: line).reverse⟩ :: splitLines (start + byteLength (c :: line)) [] cs
    else splitLines start (c :: line) cs

def ofText (text : String) : LineIndex := ⟨splitLines 0 [] text.toList⟩

/-- The number of characters in the given number of bytes, unless these end within a character or
after the text. -/
def charsIn? : List Char → Nat → Option Nat
  | _, 0 => some 0
  | [], _ + 1 => none
  | c :: cs, bytes =>
    if c.utf8Size ≤ bytes then (charsIn? cs (bytes - c.utf8Size)).map (· + 1) else none

/-- The last line that starts at an offset or before it, and its number. -/
def lineAt (offset : Nat) : Nat → SourceLine → List SourceLine → Nat × SourceLine
  | number, line, [] => (number, line)
  | number, line, next :: rest =>
    if next.start ≤ offset then lineAt offset (number + 1) next rest else (number, line)

def point (index : LineIndex) (offset : Nat) : Point :=
  let (number, line) : Nat × SourceLine := match index.lines with
    | [] => (1, ⟨0, []⟩)
    | first :: rest => lineAt offset 1 first rest
  let bytes := offset - line.start
  { line := number, column := (charsIn? line.chars bytes).getD bytes + 1, offset := some offset }

def position (index : LineIndex) (start stop : Nat) : Position :=
  ⟨index.point start, index.point stop⟩

end LineIndex

end PageTree.Markdown
