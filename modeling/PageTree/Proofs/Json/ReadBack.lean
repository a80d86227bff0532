import PageTree.Proofs.Json.Text
import PageTree.Proofs.Json.Value

/-!
Reading what was written. In either layout the text of a value without doubles reads as the written
form of the value, and nothing of what follows the text is taken. The steps given to the reader are
always enough, as no step is taken without a character for it.
-/

namespace PageTree.Json

def Blank (cs : List Char) : Prop := ∀ c ∈ cs, isBlank c = true

/-- A layout whose separators hold nothing but blanks and the colon. -/
structure Layout.Spaced (layout : Layout) : Prop where
  newline : ∀ depth, Blank (layout.newline depth)
  colon : ∃ blanks, Blank blanks ∧ layout.colon = ':' :: blanks

theorem blank_nil : Blank [] := by simp [Blank]

theorem blank_indentation (depth : Nat) : Blank (indentation depth) := by
  intro c member
  rcases List.mem_cons.mp member with rfl | space
  · rfl
  · rw [(List.mem_replicate.mp space).2]
    rfl

theorem spaced_layoutOf (pretty : Bool) : (layoutOf pretty).Spaced := by
  cases pretty with
  | false => exact ⟨fun _ => blank_nil, [], blank_nil, rfl⟩
  | true => exact ⟨blank_indentation, [' '], by simp [Blank, isBlank], rfl⟩

theorem skipBlank_append {blanks : List Char} (blank : Blank blanks) (cs : List Char) :
    skipBlank (blanks ++ cs) = skipBlank cs :=
  List.dropWhile_append_of_pos blank

theorem skipBlank_cons {c : Char} (visible : isBlank c = false) (cs : List Char) :
    skipBlank (c :: cs) = c :: cs := by
  simp [skipBlank, visible]

theorem endsNumeral_append {blanks rest : List Char} (blank : Blank blanks)
    (ends : EndsNumeral rest) : EndsNumeral (blanks ++ rest) := by
  cases blanks with
  | nil => exact ends
  | cons c blanks =>
    have space : isBlank c = true := blank c (by simp)
    simp only [isBlank, Bool.or_eq_true, decide_eq_true_eq] at space
    rcases space with ((rfl | rfl) | rfl) | rfl <;>
      exact endsNumeral_cons (by decide) (by decide) (by decide) (by decide)

def StartsValue (c : Char) : Prop :=
  c = 'n' ∨ c = 't' ∨ c = 'f' ∨ c = '"' ∨ c = '[' ∨ c = '{' ∨ c = '-' ∨ c.isDigit = true

theorem StartsValue.visible {c : Char} (starts : StartsValue c) :
    isBlank c = false ∧ c ≠ ']' ∧ c ≠ '}' := by
  rcases starts with rfl | rfl | rfl | rfl | rfl | rfl | rfl | digit
  any_goals decide
  refine ⟨?_, ?_, ?_⟩
  · by_contra blank
    simp only [isBlank, Bool.not_eq_false, Bool.or_eq_true, decide_eq_true_eq] at blank
    rcases blank with ((rfl | rfl) | rfl) | rfl <;> exact absurd digit (by decide)
  · intro same
    subst same
    exact absurd digit (by decide)
  · intro same
    subst same
    exact absurd digit (by decide)

theorem intText_cons (n : Int) :
    ∃ c cs, intText n = c :: cs ∧ (c = '-' ∨ c.isDigit = true) := by
  unfold intText
  split
  · exact ⟨'-', _, rfl, Or.inl rfl⟩
  · cases digits : Nat.toDigits 10 n.natAbs with
    | nil => exact absurd digits Nat.toDigits_ne_nil
    | cons c cs =>
      refine ⟨c, cs, rfl, Or.inr ?_⟩
      exact Nat.isDigit_of_mem_toDigits (b := 10) (n := n.natAbs) (by decide) (by decide)
        (by rw [digits]; exact List.mem_cons_self)

theorem writeAt_cons (layout : Layout) (depth : Nat) {value : Json} (integral : value.Integral) :
    ∃ c cs, writeAt layout depth value = c :: cs ∧ StartsValue c := by
  cases value with
  | null => exact ⟨'n', _, rfl, by simp [StartsValue]⟩
  | bool b =>
    cases b with
    | false => exact ⟨'f', "alse".toList, rfl, by simp [StartsValue]⟩
    | true => exact ⟨'t', "rue".toList, rfl, by simp [StartsValue]⟩
  | int n =>
    obtain ⟨c, cs, same, first⟩ := intText_cons n
    refine ⟨c, cs, same, ?_⟩
    rcases first with rfl | digit
    · simp [StartsValue]
    · simp [StartsValue, digit]
  | double bits => exact absurd integral (not_integral_double bits)
  | str s => exact ⟨'"', _, rfl, by simp [StartsValue]⟩
  | arr items => cases items <;> exact ⟨'[', _, rfl, by simp [StartsValue]⟩
  | obj fields =>
    rcases fields with _ | ⟨⟨key, value⟩, fields⟩ <;> exact ⟨'{', _, rfl, by simp [StartsValue]⟩

theorem skipBlank_writeAt {blanks : List Char} (blank : Blank blanks) (layout : Layout)
    (depth : Nat) {value : Json} (integral : value.Integral) (rest : List Char) :
    skipBlank (blanks ++ (writeAt layout depth value ++ rest)) =
      writeAt layout depth value ++ rest := by
  obtain ⟨c, cs, same, starts⟩ := writeAt_cons layout depth integral
  rw [skipBlank_append blank, same, List.cons_append, skipBlank_cons starts.visible.1]

theorem readValue_append {blanks : List Char} (blank : Blank blanks) (steps : Nat)
    (cs : List Char) : readValue steps (blanks ++ cs) = readValue steps cs := by
  cases steps with
  | zero => rfl
  | succ steps => simp only [readValue, skipBlank_append blank]

theorem readValue_numeral {c : Char} {cs : List Char} (first : c = '-' ∨ c.isDigit = true)
    (steps : Nat) : readValue (steps + 1) (c :: cs) =
      (readNumeral (c :: cs)).map fun result => (.num result.1, result.2) := by
  have starts : StartsValue c := by
    rcases first with rfl | digit
    · simp [StartsValue]
    · simp [StartsValue, digit]
  have other : ∀ letter : Char, letter ≠ '-' → letter.isDigit = false → c ≠ letter := by
    intro letter sign digit same
    subst same
    rcases first with minus | figure
    · exact sign minus
    · rw [digit] at figure
      cases figure
  rw [readValue, skipBlank_cons starts.visible.1]
  split
  · next same => exact absurd (List.cons.inj same).1 (other 'n' (by decide) (by decide))
  · next same => exact absurd (List.cons.inj same).1 (other 't' (by decide) (by decide))
  · next same => exact absurd (List.cons.inj same).1 (other 'f' (by decide) (by decide))
  · next same => exact absurd (List.cons.inj same).1 (other '"' (by decide) (by decide))
  · next same => exact absurd (List.cons.inj same).1 (other '[' (by decide) (by decide))
  · next same => exact absurd (List.cons.inj same).1 (other '{' (by decide) (by decide))
  · rfl

/-- In this layout the text of the value reads as its written form, given two steps for each
character. -/
def ReadsBack (layout : Layout) (value : Json) : Prop :=
  ∀ steps depth rest, 2 * (writeAt layout depth value).length ≤ steps → EndsNumeral rest →
    readValue steps (writeAt layout depth value ++ rest) = some (value.written, rest)

theorem readsBack_int (layout : Layout) (n : Int) : ReadsBack layout (int n) := by
  intro steps depth rest enough ends
  obtain ⟨c, cs, same, first⟩ := intText_cons n
  have text : writeAt layout depth (int n) = c :: cs := same
  obtain ⟨steps, rfl⟩ : ∃ left, steps = left + 1 := by
    rw [text, List.length_cons] at enough
    exact ⟨steps - 1, by omega⟩
  rw [text, List.cons_append, readValue_numeral first, ← List.cons_append, ← same,
    readNumeral_intText n ends]
  rfl

theorem readsBack_str (layout : Layout) (s : String) : ReadsBack layout (str s) := by
  intro steps depth rest enough _
  have text : writeAt layout depth (str s) = quoted s := rfl
  obtain ⟨steps, rfl⟩ : ∃ left, steps = left + 1 := by
    rw [text, quoted, List.length_cons] at enough
    exact ⟨steps - 1, by omega⟩
  rw [text, quoted_append, readValue, skipBlank_cons (by decide)]
  simp only [readString_escaped, Option.map_some]
  rfl

theorem readsBack_literal (layout : Layout) {value : Json}
    (literal : value = null ∨ value = bool true ∨ value = bool false) :
    ReadsBack layout value := by
  intro steps depth rest enough _
  obtain ⟨steps, rfl⟩ : ∃ left, steps = left + 1 := by
    rcases literal with rfl | rfl | rfl <;> exact ⟨steps - 1, by
      simp only [writeAt, scalarText, List.length_cons, String.reduceToList] at enough; omega⟩
  rcases literal with rfl | rfl | rfl <;> rfl

theorem endsNumeral_writeItems {layout : Layout} (spaced : layout.Spaced) (depth : Nat)
    (items : List Json) (rest : List Char) :
    EndsNumeral (writeItems layout depth items ++ (layout.newline depth ++ ']' :: rest)) := by
  cases items with
  | nil =>
    rw [writeItems, List.nil_append]
    exact endsNumeral_append (spaced.newline depth)
      (endsNumeral_cons (by decide) (by decide) (by decide) (by decide))
  | cons item items =>
    exact endsNumeral_cons (by decide) (by decide) (by decide) (by decide)

theorem readItems_writeItems {layout : Layout} (spaced : layout.Spaced) (depth : Nat)
    (rest : List Char) (item : Json) (items : List Json)
    (each : ∀ x ∈ item :: items, ReadsBack layout x) (steps : Nat) {blanks : List Char}
    (blank : Blank blanks)
    (enough : 2 * (writeAt layout (depth + 1) item ++ writeItems layout depth items).length
      < steps) :
    readItems steps (blanks ++ (writeAt layout (depth + 1) item
      ++ (writeItems layout depth items ++ (layout.newline depth ++ ']' :: rest)))) =
      some (writtenItems (item :: items), rest) := by
  induction items generalizing item steps blanks with
  | nil =>
    obtain ⟨steps, rfl⟩ : ∃ left, steps = left + 1 := ⟨steps - 1, by omega⟩
    simp only [List.length_append, writeItems, List.length_nil] at enough
    have read := each item (by simp) steps (depth + 1) _ (by omega)
      (endsNumeral_writeItems spaced depth [] rest)
    rw [readItems, readValue_append blank, read]
    simp only [writeItems, List.nil_append, Option.bind_eq_bind, Option.bind_some,
      skipBlank_append (spaced.newline depth), skipBlank_cons (show isBlank ']' = false by decide)]
    rfl
  | cons next items ih =>
    obtain ⟨steps, rfl⟩ : ∃ left, steps = left + 1 := ⟨steps - 1, by omega⟩
    simp only [List.length_append, writeItems, List.length_cons] at enough
    have read := each item (by simp) steps (depth + 1) _ (by omega)
      (endsNumeral_writeItems spaced depth (next :: items) rest)
    have others := ih next (fun x member => each x (List.mem_cons_of_mem _ member)) steps
      (spaced.newline (depth + 1)) (by simp only [List.length_append]; omega)
    rw [readItems, readValue_append blank, read]
    simp only [writeItems, List.cons_append, List.append_assoc, Option.bind_eq_bind,
      Option.bind_some, skipBlank_cons (show isBlank ',' = false by decide)]
    rw [others]
    rfl

theorem readsBack_arr {layout : Layout} (spaced : layout.Spaced) {items : List Json}
    (integral : ∀ item ∈ items, Integral item) (each : ∀ item ∈ items, ReadsBack layout item) :
    ReadsBack layout (arr items) := by
  intro steps depth rest enough _
  cases items with
  | nil =>
    obtain ⟨steps, rfl⟩ : ∃ left, steps = left + 1 := by
      simp only [writeAt, List.length_cons] at enough
      exact ⟨steps - 1, by omega⟩
    rfl
  | cons item items =>
    simp only [writeAt, List.length_cons, List.length_append] at enough
    obtain ⟨steps, rfl⟩ : ∃ left, steps = left + 1 := ⟨steps - 1, by omega⟩
    have others := readItems_writeItems spaced depth rest item items each steps blank_nil
      (by simp only [List.length_append]; omega)
    obtain ⟨c, cs, same, starts⟩ :=
      writeAt_cons layout (depth + 1) (integral item List.mem_cons_self)
    simp only [writeAt, List.cons_append, List.append_assoc, List.nil_append]
    rw [readValue, skipBlank_cons (by decide)]
    simp only
    rw [skipBlank_writeAt (spaced.newline (depth + 1)) layout (depth + 1)
      (integral item List.mem_cons_self)]
    split
    · next closed =>
      rw [same, List.cons_append] at closed
      exact absurd (List.cons.inj closed).1 starts.visible.2.1
    · rw [List.nil_append] at others
      rw [others]
      rfl

theorem endsNumeral_writeFields {layout : Layout} (spaced : layout.Spaced) (depth : Nat)
    (fields : Fields) (rest : List Char) :
    EndsNumeral (writeFields layout depth fields ++ (layout.newline depth ++ '}' :: rest)) := by
  cases fields with
  | nil =>
    rw [writeFields, List.nil_append]
    exact endsNumeral_append (spaced.newline depth)
      (endsNumeral_cons (by decide) (by decide) (by decide) (by decide))
  | cons field fields =>
    exact endsNumeral_cons (by decide) (by decide) (by decide) (by decide)

theorem readFields_writeFields {layout : Layout} (spaced : layout.Spaced) (depth : Nat)
    (rest : List Char) (field : String × Json) (fields : Fields)
    (each : ∀ x ∈ field :: fields, ReadsBack layout x.2) (steps : Nat) {blanks : List Char}
    (blank : Blank blanks)
    (enough : 2 * (writeAt layout (depth + 1) field.2 ++ writeFields layout depth fields).length
      < steps) :
    readFields steps (blanks ++ (quoted field.1 ++ (layout.colon
      ++ (writeAt layout (depth + 1) field.2
      ++ (writeFields layout depth fields ++ (layout.newline depth ++ '}' :: rest)))))) =
      some (writtenFields (field :: fields), rest) := by
  obtain ⟨gap, gapBlank, colon⟩ := spaced.colon
  induction fields generalizing field steps blanks with
  | nil =>
    obtain ⟨steps, rfl⟩ : ∃ left, steps = left + 1 := ⟨steps - 1, by omega⟩
    simp only [List.length_append, writeFields, List.length_nil] at enough
    have read := each field (by simp) steps (depth + 1) _ (by omega)
      (endsNumeral_writeFields spaced depth [] rest)
    simp only [readFields, skipBlank_append blank, quoted_append,
      skipBlank_cons (show isBlank '"' = false by decide), readString_escaped, colon,
      List.cons_append, skipBlank_cons (show isBlank ':' = false by decide),
      readValue_append gapBlank, read, Option.bind_eq_bind, Option.bind_some]
    simp only [writeFields, List.nil_append, skipBlank_append (spaced.newline depth),
      skipBlank_cons (show isBlank '}' = false by decide)]
    rfl
  | cons next fields ih =>
    obtain ⟨steps, rfl⟩ : ∃ left, steps = left + 1 := ⟨steps - 1, by omega⟩
    simp only [List.length_append, writeFields, List.length_cons] at enough
    have read := each field (by simp) steps (depth + 1) _ (by omega)
      (endsNumeral_writeFields spaced depth (next :: fields) rest)
    have others := ih next (fun x member => each x (List.mem_cons_of_mem _ member)) steps
      (spaced.newline (depth + 1)) (by simp only [List.length_append]; omega)
    simp only [readFields, skipBlank_append blank, quoted_append,
      skipBlank_cons (show isBlank '"' = false by decide), readString_escaped, colon,
      List.cons_append, skipBlank_cons (show isBlank ':' = false by decide),
      readValue_append gapBlank, read, Option.bind_eq_bind, Option.bind_some]
    simp only [writeFields, List.cons_append, List.append_assoc,
      skipBlank_cons (show isBlank ',' = false by decide)]
    rw [others]
    rfl

theorem readsBack_obj {layout : Layout} (spaced : layout.Spaced) {fields : Fields}
    (each : ∀ field ∈ fields, ReadsBack layout field.2) : ReadsBack layout (obj fields) := by
  intro steps depth rest enough _
  cases fields with
  | nil =>
    obtain ⟨steps, rfl⟩ : ∃ left, steps = left + 1 := by
      simp only [writeAt, List.length_cons] at enough
      exact ⟨steps - 1, by omega⟩
    rfl
  | cons field fields =>
    obtain ⟨key, value⟩ := field
    simp only [writeAt, List.length_cons, List.length_append] at enough
    obtain ⟨steps, rfl⟩ : ∃ left, steps = left + 1 := ⟨steps - 1, by omega⟩
    have others := readFields_writeFields spaced depth rest (key, value) fields each steps blank_nil
      (by simp only [List.length_append]; omega)
    simp only [List.nil_append, quoted_append] at others
    simp only [writeAt, List.cons_append, List.append_assoc, List.nil_append, quoted_append]
    rw [readValue, skipBlank_cons (by decide)]
    simp only [skipBlank_append (spaced.newline (depth + 1)),
      skipBlank_cons (show isBlank '"' = false by decide)]
    split
    · next closed => exact absurd (List.cons.inj closed).1 (by decide)
    · rw [others]
      rfl

theorem readsBack_of_integral {layout : Layout} (spaced : layout.Spaced) {value : Json}
    (integral : value.Integral) : ReadsBack layout value := by
  induction value using parts_induction with
  | step value ih =>
    cases value with
    | null => exact readsBack_literal layout (by simp)
    | bool b => exact readsBack_literal layout (by cases b <;> simp)
    | int n => exact readsBack_int layout n
    | double bits => exact absurd integral (not_integral_double bits)
    | str s => exact readsBack_str layout s
    | arr items =>
      exact readsBack_arr spaced integral.item fun item member =>
        ih item member (integral.item item member)
    | obj fields =>
      exact readsBack_obj spaced fun field member =>
        ih field.2 (List.mem_map_of_mem member) (integral.field field member)

theorem readDocument_append (pretty : Bool) {value : Json} (integral : value.Integral)
    {blanks : List Char} (blank : Blank blanks) :
    readDocument ((value.write pretty).toList ++ blanks) = some value.written := by
  have ends : EndsNumeral blanks := by
    rw [← List.append_nil blanks]
    exact endsNumeral_append blank endsNumeral_nil
  have enough : 2 * (writeAt (layoutOf pretty) 0 value).length ≤
      readingSteps (writeAt (layoutOf pretty) 0 value ++ blanks) := by
    rw [readingSteps, List.length_append]
    omega
  have read := readsBack_of_integral (spaced_layoutOf pretty) integral _ 0 blanks enough ends
  have nothing : skipBlank blanks = [] := by
    rw [← List.append_nil blanks, skipBlank_append blank]
    rfl
  rw [write, String.toList_ofList, readDocument, read]
  simp only [nothing, List.isEmpty_nil, if_true]

theorem readDocument_write (pretty : Bool) {value : Json} (integral : value.Integral) :
    readDocument (value.write pretty).toList = some value.written := by
  have read := readDocument_append pretty integral blank_nil
  rwa [List.append_nil] at read

end PageTree.Json
