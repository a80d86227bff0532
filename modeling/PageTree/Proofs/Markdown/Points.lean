import Mathlib.Data.List.DropRight
import PageTree.Proofs.Markdown.Positions

/-!
The point of an offset. Between two characters of a text it tells the line feeds before the offset, and
the characters since the last of them, so that points stand in the order of their offsets.
-/

namespace PageTree

def Point.Before (first second : Point) : Prop :=
  first.line < second.line ∨ first.line = second.line ∧ first.column < second.column

/-- The order of points, by line and column as well as by offset. -/
structure Point.NotAfter (first second : Point) : Prop where
  line : first.line < second.line ∨ first.line = second.line ∧ first.column ≤ second.column
  offset : ∃ a b, first.offset = some a ∧ second.offset = some b ∧ a ≤ b

end PageTree

namespace PageTree.Markdown

/-- An offset in bytes that no character of the text lies across. -/
def IsBoundary (text : String) (offset : Nat) : Prop := String.Pos.Raw.IsValid text ⟨offset⟩

instance (text : String) (offset : Nat) : Decidable (IsBoundary text offset) :=
  inferInstanceAs (Decidable (String.Pos.Raw.IsValid text ⟨offset⟩))

namespace LineIndex

theorem byteLength_eq (cs : List Char) : byteLength cs = String.utf8Len cs := by
  induction cs with
  | nil => rfl
  | cons c cs ih => rw [String.utf8Len_cons, byteLength_cons, ih, Nat.add_comm]

theorem byteLength_append (front back : List Char) :
    byteLength (front ++ back) = byteLength front + byteLength back := by
  simp only [byteLength_eq, String.utf8Len_append]

theorem byteLength_reverse (cs : List Char) : byteLength cs.reverse = byteLength cs := by
  simp only [byteLength_eq, String.utf8Len_reverse]

theorem charsIn?_append (front back : List Char) :
    charsIn? (front ++ back) (byteLength front) = some front.length := by
  induction front with
  | nil => cases back <;> rfl
  | cons c front ih =>
    have positive := c.utf8Size_pos
    have some : byteLength (c :: front) ≠ 0 := by
      rw [byteLength_cons]
      omega
    have fits : c.utf8Size ≤ byteLength (c :: front) := Nat.le_add_right _ _
    have rest : byteLength (c :: front) - c.utf8Size = byteLength front := Nat.add_sub_cancel_left ..
    rw [List.cons_append, charsIn?, if_pos fits, rest, ih, Option.map_some, List.length_cons]
    exact some

def lastLine (front : List Char) : List Char := front.rtakeWhile (· ≠ '\n')

theorem lastLine_concat (front : List Char) (c : Char) :
    lastLine (front ++ [c]) = if c = '\n' then [] else lastLine front ++ [c] := by
  rw [lastLine, List.rtakeWhile_concat, lastLine]
  by_cases feed : c = '\n' <;> simp [feed]

theorem lastLine_append {front back : List Char} (plain : '\n' ∉ back) :
    lastLine (front ++ back) = lastLine front ++ back := by
  induction back using List.reverseRecOn with
  | nil => rw [List.append_nil, List.append_nil]
  | append_singleton back c ih =>
    rw [List.mem_append, List.mem_singleton, not_or] at plain
    rw [← List.append_assoc, lastLine_concat, if_neg (Ne.symm plain.2), ih plain.1,
      List.append_assoc]

theorem lastLine_feed (front back : List Char) : lastLine (front ++ '\n' :: back) = lastLine back := by
  induction back using List.reverseRecOn with
  | nil => exact (lastLine_concat front '\n').trans (if_pos rfl)
  | append_singleton back c ih =>
    rw [← List.cons_append, ← List.append_assoc, lastLine_concat, ih, lastLine_concat]

theorem lastLine_eq_self {line : List Char} (plain : '\n' ∉ line) : lastLine line = line :=
  @lastLine_append [] line plain

theorem exists_splitLines (start : Nat) (line cs : List Char) : ∃ first rest,
    splitLines start line cs = first :: rest ∧ first.start = start ∧ line.reverse <+: first.chars ∧
      ∀ next ∈ rest.head?, start + byteLength line < next.start := by
  induction cs generalizing start line with
  | nil => exact ⟨_, _, rfl, rfl, List.prefix_rfl, by simp⟩
  | cons c cs ih =>
    have positive := c.utf8Size_pos
    rw [splitLines]
    split
    · obtain ⟨first, rest, known, begins, -, -⟩ := ih (start + byteLength (c :: line)) []
      refine ⟨_, _, rfl, rfl, by simp, ?_⟩
      rw [known, byteLength_cons] at *
      rintro _ ⟨⟩
      omega
    · obtain ⟨first, rest, known, begins, holds, later⟩ := ih start (c :: line)
      rw [List.reverse_cons] at holds
      refine ⟨first, rest, known, begins, (List.prefix_append _ _).trans holds, ?_⟩
      intro next head
      have after := later next head
      rw [byteLength_cons] at after
      omega

theorem lineAt_splitLines (start number : Nat) (line : List Char) (plain : '\n' ∉ line)
    (front back : List Char) : ∃ first rest found,
      splitLines start line (front ++ back) = first :: rest ∧ first.start = start ∧
        lineAt (start + byteLength line + byteLength front) number first rest =
          (number + front.count '\n', found) ∧
        lastLine (line.reverse ++ front) <+: found.chars ∧
        found.start + byteLength (lastLine (line.reverse ++ front)) =
          start + byteLength line + byteLength front := by
  induction front generalizing start number line with
  | nil =>
    obtain ⟨first, rest, known, begins, holds, later⟩ := exists_splitLines start line back
    have whole : lastLine (line.reverse ++ []) = line.reverse := by
      rw [List.append_nil, lastLine_eq_self (by simpa using plain)]
    have here : lineAt (start + byteLength line + byteLength []) number first rest =
        (number, first) := by
      cases rest with
      | nil => rfl
      | cons next rest =>
        have after := later next rfl
        exact if_neg (Nat.not_le.mpr after)
    rw [whole, byteLength_reverse]
    exact ⟨first, rest, first, known, begins, here, holds, by rw [begins]; rfl⟩
  | cons c front ih =>
    by_cases feed : c = '\n'
    · subst feed
      obtain ⟨first, rest, found, known, begins, lies, holds, ends⟩ :=
        ih (start + byteLength ('\n' :: line)) (number + 1) [] (by simp)
      have offset : start + byteLength line + byteLength ('\n' :: front) =
          start + byteLength ('\n' :: line) + byteLength [] + byteLength front := by
        simp only [byteLength_cons]
        change _ = _ + 0 + _
        omega
      have reached : first.start ≤ start + byteLength line + byteLength ('\n' :: front) := by
        rw [begins, offset]
        omega
      refine ⟨⟨start, ('\n' :: line).reverse⟩, first :: rest, found, ?_, rfl, ?_, ?_, ?_⟩
      · rw [List.cons_append, splitLines, if_pos rfl, known]
      · rw [lineAt, if_pos reached, offset, lies, List.count_cons_self, Nat.add_assoc,
          Nat.add_comm 1]
      · rw [lastLine_feed]
        exact holds
      · rw [lastLine_feed, offset]
        exact ends
    · have inner : '\n' ∉ c :: line := by simp [Ne.symm feed, plain]
      obtain ⟨first, rest, found, known, begins, lies, holds, ends⟩ := ih start number (c :: line) inner
      have offset : start + byteLength (c :: line) + byteLength front =
          start + byteLength line + byteLength (c :: front) := by
        simp only [byteLength_cons]
        omega
      have read : (c :: line).reverse ++ front = line.reverse ++ c :: front := by simp
      rw [offset] at lies ends
      rw [read] at holds ends
      refine ⟨first, rest, found, ?_, begins, ?_, holds, ends⟩
      · rw [List.cons_append, splitLines, if_neg feed, known]
      · rw [lies, List.count_cons_of_ne feed]

theorem exists_lineAt (front back : String) : ∃ first rest found,
    (ofText (front ++ back)).lines = first :: rest ∧ first.start = 0 ∧
      lineAt front.utf8ByteSize 1 first rest = (front.toList.count '\n' + 1, found) ∧
      charsIn? found.chars (front.utf8ByteSize - found.start) =
        some (lastLine front.toList).length := by
  obtain ⟨first, rest, found, known, begins, lies, ⟨more, holds⟩, ends⟩ :=
    lineAt_splitLines 0 1 [] (by simp) front.toList back.toList
  have offset : 0 + byteLength [] + byteLength front.toList = front.utf8ByteSize := by
    rw [utf8ByteSize_eq]
    exact Nat.zero_add _
  rw [List.reverse_nil, List.nil_append] at holds ends
  rw [offset] at lies ends
  have lines : (ofText (front ++ back)).lines = first :: rest := by
    rw [ofText, String.toList_append]
    exact known
  have bytes : front.utf8ByteSize - found.start = byteLength (lastLine front.toList) := by omega
  refine ⟨first, rest, found, lines, begins, ?_, ?_⟩
  · rw [lies, Nat.add_comm 1]
  · rw [bytes, ← holds, charsIn?_append]

/-- The point of an offset between two characters. -/
theorem point_utf8ByteSize (front back : String) :
    (ofText (front ++ back)).point front.utf8ByteSize =
      { line := front.toList.count '\n' + 1, column := (lastLine front.toList).length + 1,
        offset := some front.utf8ByteSize } := by
  obtain ⟨first, rest, found, lines, -, lies, within⟩ := exists_lineAt front back
  rw [point, lines]
  simp only [lies, within, Option.getD_some]

theorem exists_of_isBoundary {text : String} {offset : Nat} (boundary : IsBoundary text offset) :
    ∃ front back, text = front ++ back ∧ offset = front.utf8ByteSize := by
  obtain ⟨front, back, whole, same⟩ := String.Pos.Raw.isValid_iff_exists_append.mp boundary
  exact ⟨front, back, whole, congrArg String.Pos.Raw.byteIdx same⟩

theorem byteLength_eq_zero_iff {cs : List Char} : byteLength cs = 0 ↔ cs = [] := by
  have length := length_le_byteLength cs
  constructor
  · intro zero
    exact List.length_eq_zero_iff.mp (by omega)
  · rintro rfl
    rfl

theorem prefix_of_le {front back front' back' : String} (same : front ++ back = front' ++ back')
    (le : front.utf8ByteSize ≤ front'.utf8ByteSize) : front.toList <+: front'.toList := by
  have whole : front.toList ++ back.toList = front'.toList ++ back'.toList := by
    rw [← String.toList_append, same, String.toList_append]
  have first : front.toList <+: front'.toList ++ back'.toList := ⟨_, whole⟩
  rcases List.prefix_or_prefix_of_prefix first (List.prefix_append _ _) with before | ⟨more, after⟩
  · exact before
  · rw [utf8ByteSize_eq, utf8ByteSize_eq, ← after, byteLength_append] at le
    have none : more = [] := byteLength_eq_zero_iff.mp (by omega)
    have same : front.toList = front'.toList := by rw [← after, none, List.append_nil]
    exact same ▸ List.prefix_rfl

theorem before_point {text : String} {first second : Nat} (start : IsBoundary text first)
    (stop : IsBoundary text second) (lt : first < second) :
    ((ofText text).point first).Before ((ofText text).point second) := by
  obtain ⟨front, back, whole, rfl⟩ := exists_of_isBoundary start
  obtain ⟨front', back', whole', rfl⟩ := exists_of_isBoundary stop
  have own := point_utf8ByteSize front back
  have other := point_utf8ByteSize front' back'
  rw [← whole] at own
  rw [← whole'] at other
  rw [own, other]
  obtain ⟨more, after⟩ := prefix_of_le (whole.symm.trans whole') (Nat.le_of_lt lt)
  rw [utf8ByteSize_eq, utf8ByteSize_eq, ← after, byteLength_append] at lt
  have some : more ≠ [] := fun none => by
    rw [byteLength_eq_zero_iff.mpr none] at lt
    omega
  rw [Point.Before, ← after, List.count_append]
  by_cases feed : '\n' ∈ more
  · have positive := List.count_pos_iff.mpr feed
    exact .inl (Nat.succ_lt_succ (Nat.lt_add_of_pos_right positive))
  · have positive := List.length_pos_of_ne_nil some
    rw [List.count_eq_zero.mpr feed, lastLine_append feed, List.length_append]
    exact .inr ⟨rfl, Nat.succ_lt_succ (Nat.lt_add_of_pos_right positive)⟩

theorem notAfter_point {text : String} {first second : Nat} (start : IsBoundary text first)
    (stop : IsBoundary text second) (le : first ≤ second) :
    ((ofText text).point first).NotAfter ((ofText text).point second) := by
  refine ⟨?_, _, _, rfl, rfl, le⟩
  rcases Nat.eq_or_lt_of_le le with rfl | lt
  · exact .inr ⟨rfl, Nat.le_refl _⟩
  · exact (before_point start stop lt).imp_right (And.imp_right Nat.le_of_lt)

end LineIndex

end PageTree.Markdown
