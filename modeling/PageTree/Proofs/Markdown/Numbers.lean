import Mathlib.Algebra.Ring.Nat
import Mathlib.Data.List.Basic
import PageTree.Json.Basic
import PageTree.Markdown.BlockReader

/-!
The numbers in the blocks of a text are small. A list starts with a number of at most nine digits and
a heading has a level of at most six, so that a machine word holds both. No step of the block reader
puts a larger number into a block or into an open container.
-/

namespace PageTree.Markdown

open Json (u64Bound)

def BlockKind.Small : BlockKind → Prop
  | .heading level _ _ => level < u64Bound
  | .list _ _ number => number < u64Bound
  | _ => True

inductive Block.Small : Block → Prop
  | intro {block : Block} (kind : block.kind.Small) (inside : ∀ inner ∈ block.blocks, Small inner) :
      Small block

structure Frame.Small (frame : Frame) : Prop where
  kind : frame.kind.Small
  blocks : ∀ block ∈ frame.blocks, block.Small

structure Outline.Small (o : Outline) : Prop where
  frames : ∀ frame ∈ o.frames, frame.Small
  blocks : ∀ block ∈ o.blocks, block.Small

namespace Block

theorem small_of_no_blocks {block : Block} (kind : block.kind.Small) (none : block.blocks = []) :
    block.Small := .intro kind (by simp [none])

theorem Small.tightenParagraph {block : Block} (small : block.Small) :
    block.tightenParagraph.Small := by
  obtain ⟨kind, inside⟩ := small
  unfold Block.tightenParagraph
  split
  · exact .intro trivial inside
  · exact .intro kind inside

theorem Small.tighten {block : Block} (small : block.Small) : block.tighten.Small := by
  obtain ⟨kind, inside⟩ := small
  unfold Block.tighten
  split
  · refine .intro kind fun item member => ?_
    obtain ⟨source, stands, rfl⟩ := List.mem_map.mp member
    obtain ⟨own, below⟩ := inside source stands
    refine .intro own fun inner member => ?_
    obtain ⟨paragraph, inItem, rfl⟩ := List.mem_map.mp member
    exact (below paragraph inItem).tightenParagraph
  · exact .intro kind inside

end Block

namespace Outline

variable {o : Outline} (small : o.Small)

theorem small_empty : Small {} := ⟨by simp, by simp⟩

include small

namespace Small

theorem of_same {other : Outline} (frames : other.frames = o.frames)
    (blocks : other.blocks = o.blocks) : other.Small :=
  ⟨frames ▸ small.frames, blocks ▸ small.blocks⟩

theorem append {block : Block} (own : block.Small) : (o.append block).Small := by
  unfold Outline.append
  split
  · refine ⟨small.frames, fun other member => ?_⟩
    rcases Array.mem_push.mp member with old | rfl
    · exact small.blocks other old
    · exact own
  · next frame outer stack =>
    obtain ⟨top, rest⟩ := List.forall_mem_cons.mp (stack ▸ small.frames)
    refine ⟨List.forall_mem_cons.mpr ⟨⟨top.kind, fun other member => ?_⟩, rest⟩, small.blocks⟩
    rcases Array.mem_push.mp member with old | rfl
    · exact top.blocks other old
    · exact own

theorem appendPiece (piece : Inline) : (o.appendPiece piece).Small := by
  unfold Outline.appendPiece
  split
  · exact small
  · next frame outer stack =>
    obtain ⟨top, rest⟩ := List.forall_mem_cons.mp (stack ▸ small.frames)
    exact ⟨List.forall_mem_cons.mpr ⟨⟨top.kind, top.blocks⟩, rest⟩, small.blocks⟩

theorem openFrame {kind : BlockKind} (own : kind.Small) (start : Nat) :
    (o.openFrame kind start).Small :=
  ⟨List.forall_mem_cons.mpr ⟨⟨own, by simp⟩, small.frames⟩, small.blocks⟩

theorem close (stop : Nat) : (o.close stop).Small := by
  unfold Outline.close
  split
  · exact small
  · next frame outer stack =>
    obtain ⟨top, rest⟩ := List.forall_mem_cons.mp (stack ▸ small.frames)
    have outside : ∀ emptyItem, Small { o with frames := outer, emptyItem } :=
      fun _ => ⟨rest, small.blocks⟩
    have block : Block.Small ⟨frame.kind, frame.start, stop, frame.pieces, frame.blocks.toList⟩ :=
      .intro top.kind fun inner member => top.blocks inner (Array.mem_toList_iff.mp member)
    exact (outside _).append block.tighten

theorem closeMany (stop count : Nat) : (o.closeMany stop count).Small := by
  induction count generalizing o with
  | zero => exact small
  | succ count ih => exact ih (small.close stop)

end Small

omit small in
theorem small_loosenFrame {frame : Frame} (small : frame.Small) : (loosenFrame frame).Small := by
  obtain ⟨kind, blocks⟩ := small
  unfold loosenFrame
  split
  · next same =>
    rw [same] at kind
    exact ⟨kind, blocks⟩
  · exact ⟨kind, blocks⟩

namespace Small

theorem loosenTop : o.loosenTop.Small := by
  unfold Outline.loosenTop
  split
  · next frame outer stack =>
    obtain ⟨top, rest⟩ := List.forall_mem_cons.mp (stack ▸ small.frames)
    exact ⟨List.forall_mem_cons.mpr ⟨small_loosenFrame top, rest⟩, small.blocks⟩
  · exact small

theorem loosenAround : o.loosenAround.Small := by
  unfold Outline.loosenAround
  split
  · next frame around outer stack =>
    obtain ⟨top, rest⟩ := List.forall_mem_cons.mp (stack ▸ small.frames)
    obtain ⟨second, rest⟩ := List.forall_mem_cons.mp rest
    exact ⟨List.forall_mem_cons.mpr ⟨top, List.forall_mem_cons.mpr
      ⟨small_loosenFrame second, rest⟩⟩, small.blocks⟩
  · exact small

theorem finishEmptyItem : o.finishEmptyItem.Small := by
  unfold Outline.finishEmptyItem
  cases o.emptyItem with
  | none => exact small.of_same rfl rfl
  | some stop =>
    dsimp only
    split
    · exact (small.close stop).of_same rfl rfl
    · exact small.of_same rfl rfl

theorem finishList (stop : Nat) : (o.finishList stop).Small := by
  have closed : (if o.finishEmptyItem.topKind.any isListKind then o.finishEmptyItem.close stop
      else o.finishEmptyItem).Small := by
    split
    · exact small.finishEmptyItem.close stop
    · exact small.finishEmptyItem
  unfold Outline.finishList
  dsimp only
  generalize (if o.finishEmptyItem.topKind.any isListKind then o.finishEmptyItem.close stop
    else o.finishEmptyItem) = o at closed ⊢
  split
  · exact of_same closed.loosenAround rfl rfl
  · exact closed

theorem openList (start : Nat) (mark : Char) {number : Nat} (word : number < u64Bound) :
    (o.openList start mark number).Small :=
  of_same (small.openFrame (show (BlockKind.list true mark number).Small from word) start) rfl rfl

theorem continueList (start : Nat) (mark : Char) {number : Nat} (word : number < u64Bound) :
    (o.continueList start mark number).Small := by
  have finished := small.finishEmptyItem
  unfold Outline.continueList
  dsimp only
  split
  · split
    · split
      · exact of_same finished.loosenTop rfl rfl
      · exact finished
    · exact (finished.finishList start).openList start mark word
  · exact (finished.finishList start).openList start mark word
  · exact finished.openList start mark word

theorem blankLine : o.blankLine.Small := by
  unfold Outline.blankLine
  split
  · next frame outer stack =>
    obtain ⟨top, rest⟩ := List.forall_mem_cons.mp (stack ▸ small.frames)
    split
    · exact small
    · split
      · exact ⟨List.forall_mem_cons.mpr ⟨⟨trivial, top.blocks⟩, rest⟩, small.blocks⟩
      · exact of_same small rfl rfl
    · exact of_same small rfl rfl
  · exact of_same small rfl rfl

end Small

end Outline

namespace BlockStart

theorem ofDigitChars_le (cs : List Char) (n : Nat) :
    Nat.ofDigitChars 10 cs n ≤ (n + 0x20000) * 10 ^ cs.length := by
  induction cs generalizing n with
  | nil => simp [Nat.ofDigitChars_nil]
  | cons c cs ih =>
    have small : c.toNat < 0x110000 := by
      have valid := c.valid
      rw [UInt32.isValidChar, Nat.isValidChar] at valid
      rw [Char.toNat]
      omega
    rw [Nat.ofDigitChars_cons, List.length_cons, pow_succ, mul_comm (10 ^ _) 10, ← mul_assoc]
    refine Nat.le_trans (ih _) (Nat.mul_le_mul_right _ ?_)
    omega

theorem decimal_lt {cs : List Char} (short : cs.length ≤ 9) : decimal cs < u64Bound := by
  have bound := ofDigitChars_le cs 0
  have power : 10 ^ cs.length ≤ 10 ^ 9 := Nat.pow_le_pow_right (by omega) short
  have word : (0 + 0x20000) * 10 ^ 9 < u64Bound := by decide
  exact Nat.lt_of_le_of_lt bound (Nat.lt_of_le_of_lt (Nat.mul_le_mul_left _ power) word)

theorem finishItem_number (s : Source) (c : Cursor) (mark : Char) (number indent : Nat) :
    (finishItem s c mark number indent).2.number = number := by
  unfold finishItem
  split
  · rfl
  · dsimp only
    split <;> rfl

theorem number_lt_of_item? {s : Source} {c after : Cursor} {outer : Nat} {item : ItemStart}
    (found : item? s c outer = some (after, item)) : item.number < u64Bound := by
  simp only [item?, Option.bind_eq_bind, Option.bind_eq_some_iff] at found
  obtain ⟨mark, -, found⟩ := found
  split at found
  · unfold bullet? at found
    split at found
    · cases found
    · obtain ⟨next, -, same⟩ := Option.map_eq_some_iff.mp found
      have number := finishItem_number s next mark 0 (outer + 2)
      rw [same] at number
      rw [number]
      decide
  · simp only [numbered?, Option.bind_eq_bind] at found
    split at found
    · cases found
    · next width =>
      simp only [Option.bind_eq_some_iff] at found
      obtain ⟨mark, -, found⟩ := found
      split at found
      · cases found
      · obtain ⟨next, -, same⟩ := Option.bind_eq_some_iff.mp found
        have number := finishItem_number s next mark
          (decimal (s.slice c.ix (s.skipWhile Char.isDigit c.ix)))
          (outer + 2 + (s.skipWhile Char.isDigit c.ix - c.ix))
        rw [Option.some.inj same] at number
        rw [number]
        apply decimal_lt
        simp only [Bool.or_eq_true, decide_eq_true_eq, not_or, Nat.not_lt] at width
        simp only [Source.slice, Array.length_toList, Array.size_extract]
        omega

theorem level_lt_of_heading? {s : Source} {i level : Nat} (found : heading? s i = some level) :
    level < u64Bound := by
  simp only [heading?, Option.ite_none_right_eq_some, Option.some.injEq, Bool.and_eq_true,
    decide_eq_true_eq] at found
  obtain ⟨⟨⟨-, fits⟩, -⟩, rfl⟩ := found
  exact Nat.lt_of_le_of_lt fits (by decide)

theorem level_lt_of_underline? {s : Source} {i level next : Nat}
    (found : underline? s i = some (level, next)) : level < u64Bound := by
  obtain ⟨mark, -, found⟩ := Option.bind_eq_some_iff.mp found
  split at found
  · obtain ⟨_, one, found⟩ := Option.bind_eq_some_iff.mp found
    obtain ⟨_, -, same⟩ := Option.bind_eq_some_iff.mp found
    cases one
    cases same
    decide
  · split at found
    · obtain ⟨_, two, found⟩ := Option.bind_eq_some_iff.mp found
      obtain ⟨_, -, same⟩ := Option.bind_eq_some_iff.mp found
      cases two
      cases same
      decide
    · cases found

end BlockStart

namespace BlockReader

variable (r : BlockReader)

theorem small_headingKind {level : Nat} (word : level < u64Bound)
    (attributes : Option Heading.Attributes) : (headingKind level attributes).Small := by
  cases attributes <;> exact word

theorem small_underlined (start : Nat) {level : Nat} (word : level < u64Bound) (next : Nat)
    (pieces : List Inline) (backslash : Option Nat) :
    (r.underlined start level next pieces backslash).Small := by
  refine Block.small_of_no_blocks ?_ rfl
  unfold underlined
  dsimp only
  split
  · exact word
  · exact small_headingKind word _

theorem small_cells (spine : List Container) (steps i : Nat) {done : List Block}
    (small : ∀ block ∈ done, block.Small) : ∀ block ∈ (r.cells spine steps i done).1, block.Small := by
  induction steps generalizing i done with
  | zero => exact small
  | succ steps ih =>
    unfold cells
    dsimp only
    split
    · exact small
    · refine ih _ (List.forall_mem_append.mpr ⟨small, List.forall_mem_singleton.mpr ?_⟩)
      exact Block.small_of_no_blocks trivial rfl

theorem small_row {spine : List Container} {kind : BlockKind} (own : kind.Small)
    {columns i next : Nat} {row : Block} (found : r.row? spine kind columns i = some (row, next)) :
    row.Small := by
  unfold row? at found
  dsimp only at found
  split at found
  · cases found
  · cases found
    refine .intro own fun cell member => ?_
    rcases List.mem_append.mp (List.mem_of_mem_take member) with read | added
    · exact r.small_cells spine _ i (by simp) cell read
    · rw [List.eq_of_mem_replicate added]
      exact Block.small_of_no_blocks trivial rfl

theorem small_bodyRows (spine : List Container) (columns steps i : Nat) {done : List Block}
    (small : ∀ block ∈ done, block.Small) :
    ∀ block ∈ (r.bodyRows spine columns steps i done).1, block.Small := by
  induction steps generalizing i done with
  | zero => exact small
  | succ steps ih =>
    unfold bodyRows
    dsimp only
    split
    · exact small
    · split
      · next row next found =>
        have own := r.small_row (show BlockKind.Small .tableRow from trivial) found
        exact ih _ (List.forall_mem_append.mpr ⟨small, List.forall_mem_singleton.mpr own⟩)
      · exact small

section Steps

variable {o : Outline} (small : o.Small)

include small

theorem small_readTable (start bodyStart : Nat) (alignments : List Alignment) :
    (r.readTable o start bodyStart alignments).1.Small := by
  have rows := r.small_bodyRows o.spine alignments.length (r.source.stop + 1) bodyStart
    (show ∀ block ∈ ([] : List Block), block.Small by simp)
  unfold readTable
  refine small.append (.intro trivial (List.forall_mem_append.mpr ⟨?_, rows⟩))
  split
  · next found =>
    have own := r.small_row (show BlockKind.Small .tableHead from trivial) found
    exact List.forall_mem_singleton.mpr own
  · simp

theorem small_readIndented (i columns : Nat) : (r.readIndented o i columns).1.Small := by
  refine Outline.Small.append ?_ (Block.small_of_no_blocks ?_ ?_)
  · exact small.of_same rfl rfl
  · exact trivial
  · rfl

theorem small_readFenced (i indent : Nat) (mark : Char) (length : Nat) :
    (r.readFenced o i indent mark length).1.Small :=
  small.append (Block.small_of_no_blocks trivial rfl)

theorem small_readHtml (i columns : Nat) (closing : Option (List Char)) :
    (r.readHtml o i columns closing).1.Small :=
  small.append (Block.small_of_no_blocks trivial rfl)

theorem small_readHeading (i : Nat) {level : Nat} (word : level < u64Bound) :
    (r.readHeading o i level).1.Small := by
  unfold readHeading
  dsimp only
  cases r.source.lineEnd? (i + level) with
  | some next =>
    refine small.append (Block.small_of_no_blocks ?_ ?_)
    · exact word
    · rfl
  | none =>
    refine small.append (Block.small_of_no_blocks ?_ ?_)
    · exact small_headingKind word _
    · rfl

omit small in
theorem level_lt_of_paragraphLines (spine : List Container) {steps i level next : Nat}
    {mode : LineMode} {pieces done : Array Inline} {backslash : Option Nat}
    (read : r.paragraphLines spine steps i mode pieces = .heading level done backslash next) :
    level < u64Bound := by
  induction steps generalizing i mode pieces with
  | zero => cases read
  | succ steps ih =>
    unfold paragraphLines at read
    dsimp only at read
    split at read
    · cases read
    · split at read
      · next found =>
        cases read
        split at found
        · exact BlockStart.level_lt_of_underline? found
        · cases found
      · split at read
        · cases read
        · split at read
          · cases read
          · exact ih read

theorem small_readParagraph (i : Nat) : (r.readParagraph o i).1.Small := by
  have rest : Outline.Small { o with task := none } := small.of_same rfl rfl
  unfold readParagraph
  dsimp only
  split
  · exact rest.append (Block.small_of_no_blocks trivial rfl)
  · next read =>
    exact rest.append (r.small_underlined i (r.level_lt_of_paragraphLines _ read) _ _ _)
  · exact r.small_readTable rest _ _ _

omit r in
theorem small_openFootnote (i : Nat) (label : String) : (openFootnote o i label).Small := by
  have finished := small.finishList i
  unfold openFootnote
  dsimp only
  refine Outline.Small.openFrame ?_ (show (BlockKind.footnote label).Small from trivial) i
  split
  · exact (finished.close i).of_same rfl rfl
  · exact finished.of_same rfl rfl

theorem small_openItem (i outer : Nat) (c : Cursor) {item : BlockStart.ItemStart}
    (word : item.number < u64Bound) : (r.openItem o i outer c item).1.Small := by
  have opened := (small.continueList (i - outer) item.mark word).openFrame
    (show (BlockKind.item item.indent).Small from trivial) (i - outer)
  unfold openItem
  dsimp only
  split
  · exact opened.of_same rfl rfl
  · split
    · exact opened
    · split
      · exact (opened.appendPiece _).of_same rfl rfl
      · exact opened.of_same rfl rfl

theorem small_openContainers (lineStart steps : Nat) (c : Cursor) :
    (r.openContainers lineStart steps o c).1.Small := by
  induction steps generalizing o c with
  | zero => exact small
  | succ steps ih =>
    unfold openContainers
    dsimp only
    split
    · exact small
    · split
      · exact ih (small_openFootnote small _ _) _
      · split
        · next after item found =>
          have word := BlockStart.number_lt_of_item? found
          have opened := r.small_openItem small (c.indentation r.source 4).1.ix
            (c.indentation r.source 4).2 after word
          split
          · next same =>
            rw [same] at opened
            exact ih opened _
          · exact opened
        · split
          · exact ih ((small.finishList lineStart).openFrame
              (show BlockKind.quote.Small from trivial) _) _
          · exact small

theorem small_readMarked? (i columns indent : Nat) {result : Outline × Nat}
    (read : r.readMarked? o i columns indent = some result) : result.1.Small := by
  unfold readMarked? at read
  dsimp only at read
  split at read
  · cases read
    exact r.small_readHtml small _ _ _
  · split at read
    · cases read
      exact small.append (Block.small_of_no_blocks trivial rfl)
    · split at read
      · next found =>
        cases read
        exact r.small_readHeading small i (BlockStart.level_lt_of_heading? found)
      · split at read
        · cases read
          exact r.small_readFenced small _ _ _ _
        · obtain ⟨_, -, rfl⟩ := Option.map_eq_some_iff.mp read
          exact small.of_same rfl rfl

theorem small_readBlock (lineStart : Nat) (c : Cursor) : (r.readBlock o lineStart c).1.Small := by
  have finished := small.finishList lineStart
  unfold readBlock
  dsimp only
  split
  · exact r.small_readIndented finished _ _
  · split
    · next found => exact r.small_readMarked? finished _ _ _ found
    · exact r.small_readParagraph (small.finishList _) _

theorem small_step (i : Nat) : (r.step o i).1.Small := by
  have opened := r.small_openContainers
    (small.closeMany i (o.spine.length - ((Cursor.atStart i).takeContainers r.source o.spine).2)) i
    (r.source.stop + 1) ((Cursor.atStart i).takeContainers r.source o.spine).1
  unfold step
  dsimp only
  split
  · next same =>
    rw [same] at opened
    exact opened
  · next same =>
    rw [same] at opened
    split
    · exact opened.blankLine
    · exact r.small_readBlock opened _ _

theorem small_steps (n i : Nat) : (r.steps n o i).Small := by
  induction n generalizing o i with
  | zero => exact small.closeMany i _
  | succ n ih =>
    unfold steps
    split
    · exact small.closeMany i _
    · exact ih (r.small_step small i) _

end Steps

/-- All numbers in the blocks of a text are small. -/
theorem small_read : r.read.Small := r.small_steps Outline.small_empty _ 0

end BlockReader

end PageTree.Markdown
