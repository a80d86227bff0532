import PageTree.Markdown.Source
import PageTree.Text.Ascii

/-!
Labels in brackets. A label has no unescaped bracket, at most one line end in a row and some
character that is not blank; runs of blanks in it count as one space. In a table the backslash right
before a pipe is not part of the label.
-/

namespace PageTree.Markdown.Label

def limit : Nat := 1000

/-- The state of reading: what is settled of the label, where the unsettled part starts, how many
characters counted so far, and whether all were blank. -/
structure Progress where
  done : List Char := []
  mark : Nat
  count : Nat := 0
  blank : Bool := true

/-- Goes over a run of blanks: the index after it and its weight, which is one only for a single
space. A second line end, or one that the caller refuses, ends the label. -/
def skipRun (s : Source) (resume : Nat → Option Nat) :
    Nat → Nat → Nat → Bool → Option (Nat × Nat)
  | 0, i, weight, _ => some (i, weight)
  | steps + 1, i, weight, broken =>
    match s.get? i with
    | some c =>
      if isLineEnd c then
        if broken then none
        else do
          let next ← s.lineEnd? i
          let next ← resume next
          skipRun s resume steps next (weight + 2) true
      else if isSpace c then
        skipRun s resume steps (i + 1) (weight + (if c = ' ' then 1 else 2)) broken
      else some (i, weight)
    | none => some (i, weight)

def trimStart (cs : List Char) : List Char := cs.dropWhile isWhite

def trimEnd (cs : List Char) : List Char := (cs.reverse.dropWhile isWhite).reverse

def finish (s : Source) (start i : Nat) (p : Progress) : Option (Nat × String) :=
  if p.blank then none
  else
    let label :=
      if p.mark = start then trimEnd (trimStart (s.slice start i))
      else trimEnd (p.done ++ s.slice p.mark i)
    some (i + 1, String.ofList label)

def escapedPipe? (s : Source) (i : Nat) : Option Nat :=
  if s.startsWith i ['\\', '|'] then some (i + 1)
  else if s.startsWith i ['\\', '\\', '|'] then some (i + 2)
  else none

def settlePipe (s : Source) (p : Progress) (pipe : Nat) : Progress :=
  { p with
    done := p.done ++ s.slice p.mark (pipe - 1)
    mark := pipe
    count := p.count + 1
    blank := false }

def readFrom (s : Source) (inTable : Bool) (resume : Nat → Option Nat) (start : Nat) :
    Nat → Nat → Progress → Option (Nat × String)
  | 0, _, _ => none
  | steps + 1, i, p =>
    if limit ≤ p.count then none
    else
      match s.get? i with
      | none => none
      | some c =>
        if c = '[' then none
        else if c = ']' then finish s start i p
        else if c = '\\' && (s.get? (i + 1)).any Ascii.isPunctuation then
          match if inTable then escapedPipe? s i else none with
          | some pipe => readFrom s inTable resume start steps (pipe + 1) (settlePipe s p pipe)
          | none =>
            readFrom s inTable resume start steps (i + 2)
              { p with count := p.count + 2, blank := false }
        else if isWhite c then do
          let (next, weight) ← skipRun s resume (s.stop - i + 1) i 0 false
          if 1 < weight then
            let settled := p.done ++ s.slice p.mark i ++ [' ']
            readFrom s inTable resume start steps next
              { p with done := settled, mark := next, count := p.count + (next - i) }
          else readFrom s inTable resume start steps next { p with count := p.count + 1 }
        else
          let width := if c.toNat < 128 then 0 else c.utf8Size
          readFrom s inTable resume start steps (i + 1)
            { p with count := p.count + width, blank := false }

/-- Reads a label whose opening bracket is just before `i`. The function `resume` gets the start of
each new line in the label and tells where its content starts, or refuses it. The result is the
index after the closing bracket and the label. -/
def read (s : Source) (inTable : Bool) (resume : Nat → Option Nat) (i : Nat) :
    Option (Nat × String) :=
  readFrom s inTable resume i (s.stop - i + 1) i { mark := i }

end PageTree.Markdown.Label
