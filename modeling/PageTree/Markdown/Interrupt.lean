import PageTree.Markdown.BlockStart
import PageTree.Markdown.Label

/-!
When a paragraph cannot go on in the next line: at a blank line and at the beginnings of most other
blocks. A table may begin in the middle of a paragraph if its head starts with a pipe.
-/

namespace PageTree.Markdown

structure BlockReader where
  source : Source
  extensions : Extensions

namespace BlockReader

def footnoteMark? (r : BlockReader) (i : Nat) : Option (Nat × String) := do
  if !(r.extensions.footnotes && r.source.startsWith i ['[', '^']) then none
  let (last, label) ← Label.read r.source false (fun _ => none) (i + 2)
  if r.source.has last ':' then some (last + 1, label) else none

def itemInterrupts (r : BlockReader) (i : Nat) (inside inTable : Bool) : Bool :=
  match BlockStart.itemMark? r.source i with
  | some (last, mark, number) =>
    !inside || inTable
      || ((mark = '*' || mark = '-' || mark = '+' || number = 1)
        && !r.source.isBlankLine last)
  | none => false

def htmlInterrupts (r : BlockReader) (i : Nat) : Bool :=
  r.source.has i '<'
    && ((Html.blockEnd? r.source (i + 1)).isSome || Html.namesBlock r.source (i + 1))

/-- Whether a block other than a table begins at `i`. The flag `inside` tells that the line lies
within all open containers. -/
def blockInterrupts (r : BlockReader) (i : Nat) (inside inTable : Bool) : Bool :=
  let s := r.source
  s.atLineEnd i || (BlockStart.rule? s i).isSome || (BlockStart.heading? s i).isSome
    || (BlockStart.fence? s i).isSome || s.has i '>' || r.itemInterrupts i inside inTable
    || r.htmlInterrupts i || (r.footnoteMark? i).isSome

/-- Counts the pipes of a line that no backslash precedes: their number, the place of the last one
and the index of the line end. -/
def countPipes (s : Source) : Nat → Nat → Bool → Nat → Nat → Option (Nat × Nat × Nat)
  | 0, _, _, _, _ => none
  | steps + 1, i, escaped, pipes, last =>
    match s.get? i with
    | none => none
    | some c =>
      if c = '\\' then countPipes s steps (i + 1) true pipes last
      else if isLineEnd c then some (pipes, last, i)
      else if c = '|' && !escaped then countPipes s steps (i + 1) false (pipes + 1) i
      else countPipes s steps (i + 1) false pipes last

def tableInterrupts (r : BlockReader) (spine : List Container) (i : Nat) : Bool :=
  let s := r.source
  if r.extensions.tables && s.has i '|' then
    match countPipes s (s.stop - i + 1) i false 0 i with
    | none => false
    | some (pipes, last, lineEnd) =>
      match s.lineEnd? lineEnd with
      | none => false
      | some next =>
        let (c, inside) := enterLine s spine next
        match BlockStart.tableLine? s c.ix with
        | some (_, alignments) =>
          inside && alignments.length = BlockStart.headColumns s pipes i last
        | none => false
  else false

def interrupts (r : BlockReader) (spine : List Container) (i : Nat) (inside : Bool) : Bool :=
  r.blockInterrupts i inside false || r.tableInterrupts spine i

/-- Where the content of a further line of a definition begins, unless the line interrupts it. -/
def resume? (r : BlockReader) (spine : List Container) (i : Nat) : Option Nat :=
  let (c, inside) := enterLine r.source spine i
  let (c, missing) := c.advance r.source 4
  if missing ≠ 0 && (r.interrupts spine c.ix inside || (BlockStart.underline? r.source c.ix).isSome)
  then none
  else some c.ix

end BlockReader

end PageTree.Markdown
