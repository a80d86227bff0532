import PageTree.Proofs.Json.ReadBack

/-!
How deeply arrays and objects nest, counted once on the characters of a text, where brackets inside
strings do not count, and once on a value. Both counts agree on every written text, in either
layout.
-/

namespace PageTree.Json

/-- The most arrays and objects that are open at one place of a text, when some are open before it.
The flag tells that the text begins inside a string. -/
def deepest : Bool → Nat → List Char → Nat
  | _, opened, [] => opened
  | true, opened, '\\' :: _ :: rest => deepest true opened rest
  | true, opened, c :: rest =>
    if c = '"' then deepest false opened rest else deepest true opened rest
  | false, opened, c :: rest =>
    if c = '"' then deepest true opened rest
    else if c = '[' ∨ c = '{' then deepest false (opened + 1) rest
    else if c = ']' ∨ c = '}' then max opened (deepest false (opened - 1) rest)
    else deepest false opened rest

def nesting (text : String) : Nat := deepest false 0 text.toList

mutual

def depth : Json → Nat
  | arr items => depthOfItems items + 1
  | obj fields => depthOfFields fields + 1
  | _ => 0

def depthOfItems : List Json → Nat
  | [] => 0
  | item :: items => max item.depth (depthOfItems items)

def depthOfFields : List (String × Json) → Nat
  | [] => 0
  | (_, value) :: fields => max value.depth (depthOfFields fields)

end

theorem depthOfFields_append (fields others : Fields) :
    depthOfFields (fields ++ others) = max (depthOfFields fields) (depthOfFields others) := by
  induction fields with
  | nil => simp [depthOfFields]
  | cons field fields ih => simp only [List.cons_append, depthOfFields, ih, Nat.max_assoc]

theorem le_deepest (inText : Bool) (opened : Nat) (cs : List Char) :
    opened ≤ deepest inText opened cs := by
  fun_induction deepest inText opened cs with
  | case1 => exact Nat.le_refl _
  | case2 opened _ rest ih => exact ih
  | case3 opened rest _ ih => exact ih
  | case4 opened c rest _ _ ih => exact ih
  | case5 opened rest ih => exact ih
  | case6 opened c rest _ _ ih => omega
  | case7 opened c rest _ _ _ ih => exact Nat.le_max_left _ _
  | case8 opened c rest _ _ _ ih => exact ih

def Neutral (c : Char) : Prop := c ≠ '"' ∧ c ≠ '[' ∧ c ≠ '{' ∧ c ≠ ']' ∧ c ≠ '}'

instance (c : Char) : Decidable (Neutral c) :=
  inferInstanceAs (Decidable (c ≠ '"' ∧ c ≠ '[' ∧ c ≠ '{' ∧ c ≠ ']' ∧ c ≠ '}'))

theorem deepest_neutral {cs : List Char} (neutral : ∀ c ∈ cs, Neutral c) (opened : Nat)
    (rest : List Char) : deepest false opened (cs ++ rest) = deepest false opened rest := by
  induction cs with
  | nil => rfl
  | cons c cs ih =>
    obtain ⟨quote, bracket, brace, bracketEnd, braceEnd⟩ := neutral c List.mem_cons_self
    have rest := ih fun d member => neutral d (List.mem_cons_of_mem _ member)
    rw [List.cons_append, deepest, if_neg quote, if_neg (by simp [bracket, brace]),
      if_neg (by simp [bracketEnd, braceEnd]), rest]

theorem neutral_of_isBlank {c : Char} (blank : isBlank c = true) : Neutral c := by
  simp only [isBlank, Bool.or_eq_true, decide_eq_true_eq] at blank
  rcases blank with ((rfl | rfl) | rfl) | rfl <;> decide

theorem neutral_of_isAlphanum {c : Char} (letter : c.isAlphanum = true) : Neutral c := by
  have apart : ∀ d : Char, d.isAlphanum = false → c ≠ d := by
    intro d symbol same
    rw [same, symbol] at letter
    cases letter
  exact ⟨apart _ (by decide), apart _ (by decide), apart _ (by decide), apart _ (by decide),
    apart _ (by decide)⟩

theorem neutral_of_isDigit {c : Char} (digit : c.isDigit = true) : Neutral c :=
  neutral_of_isAlphanum (by simp [Char.isAlphanum, digit])

theorem neutral_intText (n : Int) : ∀ c ∈ intText n, Neutral c := by
  have digits : ∀ c ∈ Nat.toDigits 10 n.natAbs, Neutral c := fun c member =>
    neutral_of_isDigit (Nat.isDigit_of_mem_toDigits (by decide) (by decide) member)
  intro c member
  unfold intText at member
  split at member
  · rcases List.mem_cons.mp member with rfl | inside
    · decide
    · exact digits c inside
  · exact digits c member

theorem deepest_plain {c : Char} (quote : c ≠ '"') (backslash : c ≠ '\\') (opened : Nat)
    (rest : List Char) : deepest true opened (c :: rest) = deepest true opened rest := by
  rw [deepest, if_neg quote]
  intro _ _ same
  exact absurd same backslash

theorem hexDigit_plain (n : Nat) (small : n < 16) : hexDigit n ≠ '"' ∧ hexDigit n ≠ '\\' := by
  have all : ∀ n < 16, hexDigit n ≠ '"' ∧ hexDigit n ≠ '\\' := by decide
  exact all n small

theorem deepest_escapeChar (c : Char) (opened : Nat) (rest : List Char) :
    deepest true opened (escapeChar c ++ rest) = deepest true opened rest := by
  unfold escapeChar
  split_ifs with quote backslash newline carriage tab backspace feed control
  all_goals try rfl
  · obtain ⟨quote₁, backslash₁⟩ := hexDigit_plain (c.toNat / 16) (by omega)
    obtain ⟨quote₂, backslash₂⟩ := hexDigit_plain (c.toNat % 16) (by omega)
    simp only [List.cons_append, List.nil_append]
    rw [deepest, deepest_plain (by decide) (by decide), deepest_plain (by decide) (by decide),
      deepest_plain quote₁ backslash₁, deepest_plain quote₂ backslash₂]
  · exact deepest_plain quote backslash opened rest

theorem deepest_quoted (s : String) (opened : Nat) (rest : List Char) :
    deepest false opened (quoted s ++ rest) = deepest false opened rest := by
  have inside : ∀ cs : List Char, deepest true opened (cs.flatMap escapeChar ++ '"' :: rest) =
      deepest false opened rest := by
    intro cs
    induction cs with
    | nil => simp [deepest]
    | cons c cs ih => rw [List.flatMap_cons, List.append_assoc, deepest_escapeChar, ih]
  rw [quoted_append, deepest, if_pos rfl, inside]

theorem deepest_colon {layout : Layout} (spaced : layout.Spaced) (opened : Nat)
    (rest : List Char) :
    deepest false opened (layout.colon ++ rest) = deepest false opened rest := by
  obtain ⟨gap, gapBlank, colon⟩ := spaced.colon
  rw [colon]
  apply deepest_neutral
  intro c member
  rcases List.mem_cons.mp member with rfl | space
  · decide
  · exact neutral_of_isBlank (gapBlank c space)

theorem deepest_newline {layout : Layout} (spaced : layout.Spaced) (depth opened : Nat)
    (rest : List Char) :
    deepest false opened (layout.newline depth ++ rest) = deepest false opened rest :=
  deepest_neutral (fun c member => neutral_of_isBlank (spaced.newline depth c member)) opened rest

theorem deepest_neutral_cons {c : Char} (neutral : Neutral c) (opened : Nat) (rest : List Char) :
    deepest false opened (c :: rest) = deepest false opened rest := by
  have all : ∀ d ∈ [c], Neutral d := by simpa using neutral
  exact deepest_neutral all opened rest

theorem neutral_comma : Neutral ',' := by decide

/-- Going through the text of a value opens as many arrays and objects at once as nest in it. -/
def Deepens (layout : Layout) (value : Json) : Prop :=
  ∀ level opened rest, deepest false opened (writeAt layout level value ++ rest) =
    max (opened + value.depth) (deepest false opened rest)

theorem deepens_of_neutral {layout : Layout} {value : Json}
    (neutral : ∀ level, ∀ c ∈ writeAt layout level value, Neutral c) (flat : value.depth = 0) :
    Deepens layout value := by
  intro level opened rest
  rw [deepest_neutral (neutral level), flat, Nat.add_zero, Nat.max_eq_right (le_deepest _ _ _)]

theorem deepest_writeItems {layout : Layout} (spaced : layout.Spaced) {items : List Json}
    (each : ∀ item ∈ items, Deepens layout item) (level opened : Nat) (rest : List Char) :
    deepest false opened (writeItems layout level items ++ rest) =
      max (opened + depthOfItems items) (deepest false opened rest) := by
  induction items with
  | nil => exact (Nat.max_eq_right (le_deepest _ _ _)).symm
  | cons item items ih =>
    have first := each item List.mem_cons_self (level + 1) opened
    have others := ih fun x member => each x (List.mem_cons_of_mem _ member)
    rw [writeItems, depthOfItems]
    simp only [List.cons_append, List.append_assoc]
    rw [deepest_neutral_cons neutral_comma, deepest_newline spaced, first, others]
    omega

theorem deepest_writeFields {layout : Layout} (spaced : layout.Spaced) {fields : Fields}
    (each : ∀ field ∈ fields, Deepens layout field.2) (level opened : Nat) (rest : List Char) :
    deepest false opened (writeFields layout level fields ++ rest) =
      max (opened + depthOfFields fields) (deepest false opened rest) := by
  induction fields with
  | nil => exact (Nat.max_eq_right (le_deepest _ _ _)).symm
  | cons field fields ih =>
    obtain ⟨key, value⟩ := field
    have first : Deepens layout value := each (key, value) List.mem_cons_self
    have others := ih fun x member => each x (List.mem_cons_of_mem _ member)
    rw [writeFields, depthOfFields]
    simp only [List.cons_append, List.append_assoc]
    rw [deepest_neutral_cons neutral_comma, deepest_newline spaced, deepest_quoted,
      deepest_colon spaced, first, others]
    omega

theorem deepest_close {closer : Char} (closes : closer = ']' ∨ closer = '}') (opened : Nat)
    (rest : List Char) : deepest false (opened + 1) (closer :: rest) =
      max (opened + 1) (deepest false opened rest) := by
  rcases closes with rfl | rfl <;> rfl

theorem deepest_open {opener : Char} (opens : opener = '[' ∨ opener = '{') (opened : Nat)
    (rest : List Char) :
    deepest false opened (opener :: rest) = deepest false (opened + 1) rest := by
  rcases opens with rfl | rfl <;> rfl

theorem deepens_arr {layout : Layout} (spaced : layout.Spaced) {items : List Json}
    (each : ∀ item ∈ items, Deepens layout item) : Deepens layout (arr items) := by
  intro level opened rest
  cases items with
  | nil =>
    simp only [writeAt, List.cons_append, List.nil_append]
    rw [deepest_open (by simp), deepest_close (by simp)]
    rfl
  | cons item items =>
    have first := each item List.mem_cons_self (level + 1) (opened + 1)
    have others := deepest_writeItems spaced
      (fun x member => each x (List.mem_cons_of_mem _ member)) level (opened + 1)
    simp only [writeAt, List.cons_append, List.append_assoc, List.nil_append]
    rw [deepest_open (by simp), deepest_newline spaced, first, others, deepest_newline spaced,
      deepest_close (by simp), depth, depthOfItems]
    omega

theorem deepens_obj {layout : Layout} (spaced : layout.Spaced) {fields : Fields}
    (each : ∀ field ∈ fields, Deepens layout field.2) : Deepens layout (obj fields) := by
  intro level opened rest
  cases fields with
  | nil =>
    simp only [writeAt, List.cons_append, List.nil_append]
    rw [deepest_open (by simp), deepest_close (by simp)]
    rfl
  | cons field fields =>
    obtain ⟨key, value⟩ := field
    have first : Deepens layout value := each (key, value) List.mem_cons_self
    have others := deepest_writeFields spaced
      (fun x member => each x (List.mem_cons_of_mem _ member)) level (opened + 1)
    simp only [writeAt, List.cons_append, List.append_assoc, List.nil_append]
    rw [deepest_open (by simp), deepest_newline spaced, deepest_quoted, deepest_colon spaced, first,
      others, deepest_newline spaced, deepest_close (by simp), depth, depthOfFields]
    omega

theorem deepens_of_integral {layout : Layout} (spaced : layout.Spaced) {value : Json}
    (integral : value.Integral) : Deepens layout value := by
  induction value using parts_induction with
  | step value ih =>
    have letters : ∀ cs : List Char, (∀ c ∈ cs, c.isAlphanum = true) → ∀ c ∈ cs, Neutral c :=
      fun _ letters c member => neutral_of_isAlphanum (letters c member)
    cases value with
    | null => exact deepens_of_neutral (fun _ => letters "null".toList (by simp)) rfl
    | bool b =>
      cases b with
      | false => exact deepens_of_neutral (fun _ => letters "false".toList (by simp)) rfl
      | true => exact deepens_of_neutral (fun _ => letters "true".toList (by simp)) rfl
    | int n => exact deepens_of_neutral (fun _ => neutral_intText n) rfl
    | double bits => exact absurd integral (not_integral_double bits)
    | str s =>
      intro level opened rest
      rw [writeAt, scalarText, deepest_quoted, depth, Nat.add_zero,
        Nat.max_eq_right (le_deepest _ _ _)]
      all_goals simp
    | arr items =>
      exact deepens_arr spaced fun item member => ih item member (integral.item item member)
    | obj fields =>
      exact deepens_obj spaced fun field member =>
        ih field.2 (List.mem_map_of_mem member) (integral.field field member)

theorem nesting_write (pretty : Bool) {value : Json} (integral : value.Integral) :
    nesting (value.write pretty) = value.depth := by
  have deepens := deepens_of_integral (spaced_layoutOf pretty) integral 0 0 []
  rw [List.append_nil, Nat.zero_add, deepest, Nat.max_zero] at deepens
  rw [nesting, write, String.toList_ofList, deepens]

end PageTree.Json
