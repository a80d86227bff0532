import PageTree.Markdown.Source

/-!
A place in a line that counts columns. A tab reaches to the next multiple of four columns, counted
from the last tab; columns of a tab that are not used up yet are kept as `spare`. The containers
around a line each take their part of its beginning.
-/

namespace PageTree.Markdown

structure Cursor where
  ix : Nat
  tabStart : Nat
  spare : Nat := 0

inductive Container where
  | quote
  | item (indent : Nat)
  | footnote
  | plain

namespace Cursor

def atStart (i : Nat) : Cursor := ⟨i, i, 0⟩

def takeColumns (s : Source) : Nat → Nat → Cursor → Cursor × Nat
  | 0, wanted, c => (c, wanted)
  | steps + 1, wanted, c =>
    if wanted = 0 then (c, 0)
    else if s.has c.ix ' ' then takeColumns s steps (wanted - 1) { c with ix := c.ix + 1 }
    else if s.has c.ix '\t' then
      let width := 4 - (c.ix - c.tabStart) % 4
      let used := min width wanted
      takeColumns s steps (wanted - used) ⟨c.ix + 1, c.ix + 1, width - used⟩
    else (c, wanted)

/-- Goes over up to `columns` blank columns and tells how many were missing. -/
def advance (s : Source) (c : Cursor) (columns : Nat) : Cursor × Nat :=
  let used := min c.spare columns
  takeColumns s columns (columns - used) { c with spare := c.spare - used }

def indentation (s : Source) (c : Cursor) (limit : Nat) : Cursor × Nat :=
  let (next, missing) := c.advance s limit
  (next, limit - missing)

def skipBlanks (s : Source) (c : Cursor) : Cursor :=
  { c with ix := s.skipWhile (fun ch => ch = ' ' || ch = '\t') c.ix, spare := 0 }

def atLineEnd (s : Source) (c : Cursor) : Bool := s.atLineEnd c.ix

def takeQuoteMark? (s : Source) (c : Cursor) : Option Cursor :=
  if s.has c.ix '>' then some (({ c with ix := c.ix + 1 }).advance s 1).1 else none

def takeIndent? (s : Source) (c : Cursor) (columns : Nat) : Option Cursor :=
  let (next, missing) := c.advance s columns
  if missing = 0 || next.atLineEnd s then some next else none

def takeContainer? (s : Source) (c : Cursor) : Container → Option Cursor
  | .quote => (c.advance s 3).1.takeQuoteMark? s
  | .item indent => c.takeIndent? s indent
  | .footnote => c.takeIndent? s 4
  | .plain => some c

/-- Goes over the marks of the containers, outermost first, up to the first that is missing. -/
def takeContainers (s : Source) (c : Cursor) : List Container → Cursor × Nat
  | [] => (c, 0)
  | container :: inner =>
    match c.takeContainer? s container with
    | some next =>
      let (last, count) := takeContainers s next inner
      (last, count + 1)
    | none => (c, 0)

end Cursor

/-- The place after the marks of the containers on a line, and whether all of them are there. -/
def enterLine (s : Source) (spine : List Container) (i : Nat) : Cursor × Bool :=
  let (c, count) := (Cursor.atStart i).takeContainers s spine
  (c, count = spine.length)

def skipContainers (s : Source) (spine : List Container) (i : Nat) : Nat := (enterLine s spine i).1.ix

end PageTree.Markdown
