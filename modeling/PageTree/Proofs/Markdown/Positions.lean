import Mathlib.Data.String.Basic
import PageTree.Markdown.Reading
import PageTree.Markdown.LineIndex
import PageTree.Proofs.Tree.Canonical

/-!
The positions in a text. An event stands for bytes of the text, and the lines and columns of these
bytes are numbers that a machine word holds whenever a memory of that machine holds the text.
-/

namespace PageTree.Markdown

open Json (u64Bound i64Bound)

namespace LineIndex

theorem byteLength_cons (c : Char) (cs : List Char) :
    byteLength (c :: cs) = c.utf8Size + byteLength cs := rfl

theorem length_le_byteLength (cs : List Char) : cs.length ≤ byteLength cs := by
  induction cs with
  | nil => exact Nat.le_refl _
  | cons c cs ih =>
    have positive := c.utf8Size_pos
    rw [byteLength_cons, List.length_cons]
    omega

theorem utf8ByteSize_eq (text : String) : text.utf8ByteSize = byteLength text.toList := by
  have size : ∀ cs : List Char, String.utf8Len cs = byteLength cs := by
    intro cs
    induction cs with
    | nil => rfl
    | cons c cs ih => rw [String.utf8Len_cons, ih, byteLength_cons, Nat.add_comm]
  rw [← size, ← String.utf8ByteSize_ofList, String.ofList_toList]

theorem length_splitLines_le (start : Nat) (line cs : List Char) :
    (splitLines start line cs).length ≤ cs.length + 1 := by
  induction cs generalizing start line with
  | nil => exact Nat.le_refl _
  | cons c cs ih =>
    rw [splitLines]
    split
    · exact Nat.succ_le_succ (ih _ _)
    · exact Nat.le_succ_of_le (ih _ _)

theorem length_lines_le (text : String) :
    (ofText text).lines.length ≤ text.utf8ByteSize + 1 := by
  have lines := length_splitLines_le 0 [] text.toList
  have bytes := length_le_byteLength text.toList
  rw [utf8ByteSize_eq]
  exact Nat.le_trans lines (Nat.add_le_add_right bytes 1)

theorem lineAt_le (offset number : Nat) (line : SourceLine) (rest : List SourceLine) :
    (lineAt offset number line rest).1 ≤ number + rest.length := by
  induction rest generalizing number line with
  | nil => exact Nat.le_refl _
  | cons next rest ih =>
    rw [lineAt, List.length_cons]
    split
    · exact Nat.le_trans (ih (number + 1) next) (by omega)
    · exact Nat.le_add_right _ _

theorem getD_charsIn?_le (cs : List Char) (bytes : Nat) : (charsIn? cs bytes).getD bytes ≤ bytes := by
  cases within : charsIn? cs bytes with
  | none => exact Nat.le_refl _
  | some count =>
    rw [Option.getD_some]
    fun_induction charsIn? cs bytes generalizing count with
    | case1 cs =>
      cases within
      exact Nat.le_refl _
    | case2 bytes => cases within
    | case3 c cs bytes _ fits ih =>
      obtain ⟨inner, same, rfl⟩ := Option.map_eq_some_iff.mp within
      have positive := c.utf8Size_pos
      have le := ih inner same
      omega
    | case4 c cs bytes _ long => cases within

theorem point_le (index : LineIndex) (offset : Nat) :
    (index.point offset).line ≤ index.lines.length + 1 ∧
      (index.point offset).column ≤ offset + 1 ∧ (index.point offset).offset = some offset := by
  unfold point
  dsimp only
  refine ⟨?_, ?_, rfl⟩
  · split
    · next first => exact Nat.le_add_left 1 _
    · next first rest lines =>
      have bound := lineAt_le offset 1 first rest
      rw [lines, List.length_cons]
      omega
  · exact Nat.succ_le_succ (Nat.le_trans (getD_charsIn?_le _ _) (Nat.sub_le _ _))

end LineIndex

/-- A text that the memory of a 64-bit machine can hold. -/
def Held (text : String) : Prop := text.utf8ByteSize < i64Bound

theorem LineIndex.formed_position {text : String} (held : Held text) {start stop : Nat}
    (startInside : start ≤ text.utf8ByteSize) (stopInside : stop ≤ text.utf8ByteSize) :
    ((LineIndex.ofText text).position start stop).Formed := by
  have word : text.utf8ByteSize + 2 < u64Bound := Nat.lt_of_le_of_lt (Nat.add_le_add_right
    (Nat.le_of_lt held) 2) (by decide)
  have lines := length_lines_le text
  have formed : ∀ offset, offset ≤ text.utf8ByteSize →
      ((LineIndex.ofText text).point offset).Formed := by
    intro offset inside
    obtain ⟨line, column, own⟩ := point_le (LineIndex.ofText text) offset
    refine ⟨by omega, by omega, fun byte known => ?_⟩
    rw [own] at known
    obtain rfl := Option.some.inj known
    omega
  exact ⟨formed start startInside, formed stop stopInside⟩

theorem le_of_mem_byteOffsets {source : Source} {offset : Nat}
    (member : offset ∈ byteOffsets source) :
    offset ≤ LineIndex.byteLength source.chars.toList := by
  have all : ∀ (cs : List Char) (offsets : Array Nat) (before : Nat),
      (∀ offset ∈ offsets, offset ≤ before) →
      ∀ offset ∈ cs.foldl (fun offsets c => offsets.push (offsets.back?.getD 0 + c.utf8Size)) offsets,
        offset ≤ before + LineIndex.byteLength cs := by
    intro cs
    induction cs with
    | nil => exact fun offsets before within => within
    | cons c cs ih =>
      intro offsets before within offset member
      have last : offsets.back?.getD 0 ≤ before := by
        cases known : offsets.back? with
        | none => exact Nat.zero_le _
        | some last => exact within last (Array.mem_of_back? known)
      have next : ∀ offset ∈ offsets.push (offsets.back?.getD 0 + c.utf8Size),
          offset ≤ before + c.utf8Size := by
        intro offset member
        rcases Array.mem_push.mp member with old | rfl
        · exact Nat.le_add_right_of_le (within offset old)
        · omega
      rw [LineIndex.byteLength_cons, ← Nat.add_assoc]
      exact ih _ _ next offset member
  rw [byteOffsets, ← Array.foldl_toList] at member
  have bound := all source.chars.toList #[0] 0 (by simp) offset member
  omega

structure Span.Within (span : Span) (length : Nat) : Prop where
  start : span.start ≤ length
  stop : span.stop ≤ length

theorem EventReader.span_within {r : EventReader} {length : Nat}
    (offsets : ∀ offset ∈ r.offsets, offset ≤ length) (start stop : Nat) :
    (r.span start stop).Within length := by
  have inside : ∀ i : Nat, (r.offsets[i]?).getD 0 ≤ length := by
    intro i
    cases known : r.offsets[i]? with
    | none => exact Nat.zero_le _
    | some offset => exact offsets offset (Array.mem_of_getElem? known)
  exact ⟨inside start, inside stop⟩

end PageTree.Markdown
