import PageTree.Proofs.Markdown.Points

/-!
Offsets in the table of lines. The lines start later and later, the first of them with the text, so an
offset cuts the table after the last line that starts at the offset or before it. That line holds the
offset, and line and column together tell which offset between two characters it is.
-/

namespace PageTree.Markdown.LineIndex

/-- Where an offset cuts a table of lines: the lines up to `line` start at the offset or before it, and
those that follow start after it. -/
structure Cut (index : LineIndex) (offset : Nat) (before : List SourceLine) (line : SourceLine)
    (after : List SourceLine) : Prop where
  table : index.lines = before ++ line :: after
  earlier : ∀ other ∈ before, other.start < line.start
  start : line.start ≤ offset
  later : ∀ other ∈ after, offset < other.start

theorem sorted_splitLines (start : Nat) (line cs : List Char) :
    (splitLines start line cs).Pairwise (fun first second => first.start < second.start) ∧
      ∀ other ∈ splitLines start line cs, start ≤ other.start := by
  induction cs generalizing start line with
  | nil =>
    rw [splitLines]
    exact ⟨List.pairwise_singleton _ _, List.forall_mem_singleton.mpr (Nat.le_refl start)⟩
  | cons c cs ih =>
    rw [splitLines]
    split
    · obtain ⟨sorted, bound⟩ := ih (start + byteLength (c :: line)) []
      have positive := c.utf8Size_pos
      have after : ∀ other ∈ splitLines (start + byteLength (c :: line)) [] cs,
          start < other.start := by
        intro other member
        have le := bound other member
        rw [byteLength_cons] at le
        omega
      exact ⟨.cons after sorted, List.forall_mem_cons.mpr
        ⟨Nat.le_refl start, fun other member => Nat.le_of_lt (after other member)⟩⟩
    · exact ih start (c :: line)

theorem exists_lineAt_eq {offset : Nat} (number : Nat) {line : SourceLine} {rest : List SourceLine}
    (sorted : (line :: rest).Pairwise fun first second => first.start < second.start)
    (start : line.start ≤ offset) : ∃ before found after, line :: rest = before ++ found :: after ∧
      lineAt offset number line rest = (number + before.length, found) ∧ found.start ≤ offset ∧
      ∀ other ∈ after, offset < other.start := by
  induction rest generalizing number line with
  | nil => exact ⟨[], line, [], rfl, rfl, start, nofun⟩
  | cons next rest ih =>
    obtain ⟨-, tail⟩ := List.pairwise_cons.mp sorted
    rw [lineAt]
    by_cases reached : next.start ≤ offset
    · obtain ⟨before, found, after, table, search, begins, later⟩ := ih (number + 1) tail reached
      refine ⟨line :: before, found, after, ?_, ?_, begins, later⟩
      · rw [table, List.cons_append]
      · rw [if_pos reached, search, List.length_cons, Nat.add_right_comm, Nat.add_assoc]
    · rw [if_neg reached]
      have here : offset < next.start := Nat.lt_of_not_le reached
      refine ⟨[], line, next :: rest, rfl, rfl, start, List.forall_mem_cons.mpr ⟨here, ?_⟩⟩
      exact fun other member => Nat.lt_trans here ((List.pairwise_cons.mp tail).1 other member)

/-- The search for an offset between two characters finds the line on which it stands, and the characters
before it on that line. -/
theorem exists_cut (front back : String) : ∃ before line after,
    (ofText (front ++ back)).Cut front.utf8ByteSize before line after ∧
      before.length = front.toList.count '\n' ∧
      charsIn? line.chars (front.utf8ByteSize - line.start) =
        some (lastLine front.toList).length := by
  obtain ⟨first, rest, found, lines, begins, lies, within⟩ := exists_lineAt front back
  have sorted : (first :: rest).Pairwise fun first second => first.start < second.start :=
    lines ▸ (sorted_splitLines 0 [] (front ++ back).toList).1
  have start : first.start ≤ front.utf8ByteSize := begins ▸ Nat.zero_le _
  obtain ⟨before, line, after, table, search, reached, later⟩ := exists_lineAt_eq 1 sorted start
  obtain ⟨count, rfl⟩ := Prod.mk.inj (search.symm.trans lies)
  have earlier : ∀ other ∈ before, other.start < line.start := fun other member =>
    (List.pairwise_append.mp (table ▸ sorted)).2.2 other member line List.mem_cons_self
  exact ⟨before, line, after, ⟨lines.trans table, earlier, reached, later⟩, by omega, within⟩

/-- The point of an offset between two characters. Its line is the one at which the offset cuts the table,
one more than there are line feeds before the offset; its column is one more than there are characters
since the last of these, or since the start of the text. Later offsets have later points, and no two
offsets have the same line and column. -/
theorem point_exact {text : String} {offset : Nat} (boundary : IsBoundary text offset) :
    let index := ofText text
    let point := index.point offset
    (∃ before line after, index.Cut offset before line after ∧ point.line = before.length + 1 ∧
      (charsIn? line.chars (offset - line.start)).map (· + 1) = some point.column) ∧
    (∃ front back, text = front ++ back ∧ offset = front.utf8ByteSize ∧
      point = ⟨front.toList.count '\n' + 1, (lastLine front.toList).length + 1, some offset⟩) ∧
    ∀ other, IsBoundary text other →
      (offset < other → point.Before (index.point other)) ∧
      (point.line = (index.point other).line → point.column = (index.point other).column →
        offset = other) := by
  intro index point
  refine ⟨?_, ?_, fun other otherBoundary => ⟨before_point boundary otherBoundary, ?_⟩⟩
  · obtain ⟨front, back, rfl, rfl⟩ := exists_of_isBoundary boundary
    obtain ⟨before, line, after, cut, count, within⟩ := exists_cut front back
    have known : point = _ := point_utf8ByteSize front back
    rw [known]
    exact ⟨before, line, after, cut, by rw [count], by rw [within, Option.map_some]⟩
  · obtain ⟨front, back, rfl, rfl⟩ := exists_of_isBoundary boundary
    exact ⟨front, back, rfl, rfl, point_utf8ByteSize front back⟩
  · intro sameLine sameColumn
    rcases Nat.lt_trichotomy offset other with lt | same | gt
    · rcases before_point boundary otherBoundary lt with line | ⟨-, column⟩
      · exact absurd sameLine (Nat.ne_of_lt line)
      · exact absurd sameColumn (Nat.ne_of_lt column)
    · exact same
    · rcases before_point otherBoundary boundary gt with line | ⟨-, column⟩
      · exact absurd sameLine (Nat.ne_of_gt line)
      · exact absurd sameColumn (Nat.ne_of_gt column)

/-- A point after letters of two and three bytes on the second line. -/
theorem point_exact_wide :
    let text := "a\né—b"
    let point := (ofText text).point 7
    IsBoundary text 7 ∧ point = ⟨2, 3, some 7⟩ ∧
      ∀ other, IsBoundary text other → 7 < other → point.Before ((ofText text).point other) := by
  intro text point
  have boundary : IsBoundary text 7 := by decide
  exact ⟨boundary, by decide, fun other known => ((point_exact boundary).2.2 other known).1⟩

end PageTree.Markdown.LineIndex
