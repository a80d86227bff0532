import PageTree.Proofs.Json.Reading

/-!
How deeply a text nests that can be read. The brackets of such a text open and close as the arrays
and objects of the value do that it is read as, so that both nest equally deep, whatever blanks and
escapes the text has. A value that is denoted nests no deeper than what denotes it.
-/

namespace PageTree.Json

namespace Written

mutual

def depth : Written → Nat
  | arr items => depthOfItems items + 1
  | obj members => depthOfMembers members + 1
  | _ => 0

def depthOfItems : List Written → Nat
  | [] => 0
  | item :: items => max item.depth (depthOfItems items)

def depthOfMembers : List (Option String × Written) → Nat
  | [] => 0
  | (_, value) :: members => max value.depth (depthOfMembers members)

end

theorem depth_le_depthOfItems {item : Written} {items : List Written} (member : item ∈ items) :
    item.depth ≤ depthOfItems items := by
  induction items with
  | nil => exact absurd member List.not_mem_nil
  | cons first items ih =>
    rw [depthOfItems]
    rcases List.mem_cons.mp member with rfl | later
    · exact Nat.le_max_left _ _
    · exact Nat.le_trans (ih later) (Nat.le_max_right _ _)

theorem depth_le_depthOfMembers {field : Option String × Written} {members : Members}
    (member : field ∈ members) : field.2.depth ≤ depthOfMembers members := by
  induction members with
  | nil => exact absurd member List.not_mem_nil
  | cons first members ih =>
    rw [depthOfMembers]
    rcases List.mem_cons.mp member with rfl | later
    · exact Nat.le_max_left _ _
    · exact Nat.le_trans (ih later) (Nat.le_max_right _ _)

end Written

open Written (depthOfMembers AllNumerals Members Names value? value?_null value?_bool value?_num
  value?_str value?_arr_eq_some_iff value?_obj_eq_some_iff depth_le_depthOfItems
  depth_le_depthOfMembers)

theorem deepest_skipBlank (opened : Nat) (cs : List Char) :
    deepest false opened (skipBlank cs) = deepest false opened cs := by
  have split : cs.takeWhile isBlank ++ skipBlank cs = cs := List.takeWhile_append_dropWhile
  have neutral : ∀ c ∈ cs.takeWhile isBlank, Neutral c := fun c member =>
    neutral_of_isBlank (List.mem_takeWhile_imp member)
  rw [← deepest_neutral neutral opened (skipBlank cs), split]

theorem hexValue?_plain {c : Char} {n : Nat} (read : hexValue? c = some n) :
    c ≠ '"' ∧ c ≠ '\\' := by
  constructor
  · rintro rfl
    simp [hexValue?] at read
  · rintro rfl
    simp [hexValue?] at read

theorem deepest_hexUnit {a b c d : Char} {unit : Nat} (read : hexUnit? a b c d = some unit)
    (opened : Nat) (rest : List Char) :
    deepest true opened ('\\' :: 'u' :: a :: b :: c :: d :: rest) = deepest true opened rest := by
  simp only [hexUnit?, Option.bind_eq_bind, Option.bind_eq_some_iff] at read
  obtain ⟨_, first, _, second, _, third, _, fourth, -⟩ := read
  rw [deepest, deepest_plain (hexValue?_plain first).1 (hexValue?_plain first).2,
    deepest_plain (hexValue?_plain second).1 (hexValue?_plain second).2,
    deepest_plain (hexValue?_plain third).1 (hexValue?_plain third).2,
    deepest_plain (hexValue?_plain fourth).1 (hexValue?_plain fourth).2]

theorem rest_of_map_readText
    {change : Option (List Char) × List Char → Option (List Char) × List Char}
    {cs rest : List Char} {text : Option (List Char)}
    (read : (readText cs).map change = some (text, rest))
    (keeps : ∀ result, (change result).2 = result.2) :
    ∃ inner, readText cs = some (inner, rest) := by
  obtain ⟨result, inner, same⟩ := Option.map_eq_some_iff.mp read
  have left : result.2 = rest := by rw [← keeps result, same]
  exact ⟨result.1, by rw [inner, ← left]⟩

/-- A string ends where the count of brackets takes it to end. -/
theorem deepest_of_readText {cs rest : List Char} {text : Option (List Char)}
    (read : readText cs = some (text, rest)) (opened : Nat) :
    deepest true opened cs = deepest false opened rest := by
  fun_induction readText cs generalizing text with
  | case1 =>
    cases read
    rfl
  | case2 a b c d e f g h others longer shorter =>
    obtain ⟨unit, hasUnit, read⟩ := Option.bind_eq_some_iff.mp read
    rw [deepest_hexUnit hasUnit]
    split at read
    · obtain ⟨next, hasNext, read⟩ := Option.bind_eq_some_iff.mp read
      split at read
      · obtain ⟨_, inner⟩ := rest_of_map_readText read fun _ => rfl
        rw [deepest_hexUnit hasNext, longer inner]
      · obtain ⟨_, inner⟩ := rest_of_map_readText read fun _ => rfl
        exact shorter inner
    · split at read
      · obtain ⟨_, inner⟩ := rest_of_map_readText read fun _ => rfl
        exact shorter inner
      · obtain ⟨_, inner⟩ := rest_of_map_readText read fun _ => rfl
        exact shorter inner
  | case3 a b c d others _ ih =>
    obtain ⟨unit, hasUnit, read⟩ := Option.bind_eq_some_iff.mp read
    rw [deepest_hexUnit hasUnit]
    split at read
    · obtain ⟨_, inner⟩ := rest_of_map_readText read fun _ => rfl
      exact ih inner
    · obtain ⟨_, inner⟩ := rest_of_map_readText read fun _ => rfl
      exact ih inner
  | case4 c others _ _ ih =>
    obtain ⟨meant, -, read⟩ := Option.bind_eq_some_iff.mp read
    obtain ⟨_, inner⟩ := rest_of_map_readText read fun _ => rfl
    rw [deepest, ih inner]
  | case5 => cases read
  | case6 c others quote _ _ _ plain ih =>
    have backslash : c ≠ '\\' := by
      rintro rfl
      simp at plain
    obtain ⟨_, inner⟩ := rest_of_map_readText read fun _ => rfl
    rw [deepest_plain quote backslash, ih inner]
  | case7 => cases read

theorem deepest_of_readString {cs rest : List Char} {text : Option String}
    (read : readString cs = some (text, rest)) (opened : Nat) :
    deepest true opened cs = deepest false opened rest := by
  obtain ⟨result, inner, same⟩ := Option.map_eq_some_iff.mp read
  cases same
  exact deepest_of_readText inner opened

/-- What is read of a text without any bracket or quote. -/
def Passes (cs rest : List Char) : Prop := ∃ front, cs = front ++ rest ∧ ∀ c ∈ front, Neutral c

namespace Passes

theorem none (cs : List Char) : Passes cs cs := ⟨[], rfl, by simp⟩

theorem cons {c : Char} (neutral : Neutral c) {cs rest : List Char} (passes : Passes cs rest) :
    Passes (c :: cs) rest := by
  obtain ⟨front, rfl, all⟩ := passes
  exact ⟨c :: front, rfl, List.forall_mem_cons.mpr ⟨neutral, all⟩⟩

theorem trans {cs middle rest : List Char} (first : Passes cs middle)
    (second : Passes middle rest) : Passes cs rest := by
  obtain ⟨front, rfl, all⟩ := first
  obtain ⟨back, rfl, others⟩ := second
  exact ⟨front ++ back, by simp, List.forall_mem_append.mpr ⟨all, others⟩⟩

theorem deepest {cs rest : List Char} (passes : Passes cs rest) (opened : Nat) :
    deepest false opened cs = Json.deepest false opened rest := by
  obtain ⟨front, rfl, all⟩ := passes
  exact deepest_neutral all opened rest

end Passes

theorem passes_digitsOf (cs : List Char) : Passes cs (digitsOf cs).2 := by
  refine ⟨(digitsOf cs).1, ?_, fun c member => neutral_of_isDigit (isDigit_of_mem_digitsOf member)⟩
  rw [digitsOf, List.span_eq_takeWhile_dropWhile, List.takeWhile_append_dropWhile]

theorem passes_of_readWhole {cs rest whole : List Char} (read : readWhole cs = some (whole, rest)) :
    Passes cs rest := by
  have passes := passes_digitsOf cs
  unfold readWhole at read
  split at read
  · cases read
  · cases read
  · next same =>
    cases read
    rwa [same] at passes

theorem passes_of_readFraction {cs rest fraction : List Char}
    (read : readFraction cs = some (fraction, rest)) : Passes cs rest := by
  unfold readFraction at read
  split at read
  · next others =>
    have passes := passes_digitsOf others
    split at read
    · cases read
    · next same =>
      cases read
      rw [same] at passes
      exact passes.cons (by decide)
  · cases read
    exact .none _

theorem passes_of_readPower {down : Bool} {cs rest : List Char} {power : Option (Bool × List Char)}
    (read : readPower down cs = some (power, rest)) : Passes cs rest := by
  have passes := passes_digitsOf cs
  unfold readPower at read
  split at read
  · cases read
  · next same =>
    cases read
    rwa [same] at passes

theorem passes_of_readExponent {cs rest : List Char} {power : Option (Bool × List Char)}
    (read : readExponent cs = some (power, rest)) : Passes cs rest := by
  unfold readExponent at read
  split at read
  · next c others =>
    split at read
    · next letter =>
      have neutral : Neutral c := by
        simp only [Bool.or_eq_true, decide_eq_true_eq] at letter
        rcases letter with rfl | rfl <;> decide
      refine .cons neutral ?_
      split at read
      · exact (passes_of_readPower read).cons (by decide)
      · exact (passes_of_readPower read).cons (by decide)
      · exact passes_of_readPower read
    · cases read
      exact .none _
  · cases read
    exact .none _

theorem passes_of_readMagnitude {negative : Bool} {cs rest : List Char} {n : Numeral}
    (read : readMagnitude negative cs = some (n, rest)) : Passes cs rest := by
  simp only [readMagnitude, Option.bind_eq_bind, Option.bind_eq_some_iff, Option.pure_def,
    Option.some.injEq, Prod.mk.injEq, Prod.exists] at read
  obtain ⟨_, _, whole, _, _, fraction, _, _, exponent, -, rfl⟩ := read
  exact (passes_of_readWhole whole).trans
    ((passes_of_readFraction fraction).trans (passes_of_readExponent exponent))

theorem passes_of_readNumeral {cs rest : List Char} {n : Numeral}
    (read : readNumeral cs = some (n, rest)) : Passes cs rest := by
  unfold readNumeral at read
  split at read
  · exact (passes_of_readMagnitude read).cons (by decide)
  · exact passes_of_readMagnitude read

/-- Reading one value opens as many arrays and objects at once as nest in it. -/
def ValueNests (cs : List Char) (value : Written) (rest : List Char) : Prop :=
  ∀ opened, deepest false opened cs = max (opened + value.depth) (deepest false opened rest)

/-- The same for what follows an opening bracket, with the depth of all that is inside. -/
def InsideNests (cs : List Char) (depth : Nat) (rest : List Char) : Prop :=
  ∀ opened, deepest false (opened + 1) cs = max (opened + 1 + depth) (deepest false opened rest)

theorem nests_of_passes {cs rest : List Char} (passes : Passes cs rest) (opened : Nat) :
    deepest false opened cs = max (opened + 0) (deepest false opened rest) := by
  rw [passes.deepest, Nat.add_zero, Nat.max_eq_right (le_deepest _ _ _)]

theorem nests_of_word {cs rest : List Char} {word : List Char} (neutral : ∀ c ∈ word, Neutral c)
    (starts : skipBlank cs = word ++ rest) (opened : Nat) :
    deepest false opened cs = max (opened + 0) (deepest false opened rest) := by
  rw [← deepest_skipBlank]
  exact nests_of_passes ⟨word, starts, neutral⟩ opened

theorem nests_bracket {cs inner rest : List Char} {opener : Char} (opens : opener = '[' ∨ opener = '\x7b')
    {depth : Nat} (starts : skipBlank cs = opener :: inner)
    (inside : InsideNests (skipBlank inner) depth rest) (opened : Nat) :
    deepest false opened cs = max (opened + (depth + 1)) (deepest false opened rest) := by
  rw [← deepest_skipBlank, starts, deepest_open opens, ← deepest_skipBlank, inside]
  omega

/-- One value inside a bracket, and what follows it. -/
theorem insideNests_cons {cs after rest : List Char} {value : Written} {depth : Nat}
    (nests : ValueNests cs value after) (later : InsideNests (skipBlank after) depth rest) :
    InsideNests cs (max value.depth depth) rest := by
  intro opened
  rw [nests, ← deepest_skipBlank, later]
  omega

theorem insideNests_close {cs rest : List Char} {closer : Char} (closes : closer = ']' ∨ closer = '\x7d')
    (closed : cs = closer :: rest) : InsideNests cs 0 rest := by
  intro opened
  rw [closed, deepest_close closes, Nat.add_zero]

theorem insideNests_comma {cs more rest : List Char} {depth : Nat} (comma : cs = ',' :: more)
    (later : InsideNests more depth rest) : InsideNests cs depth rest := by
  intro opened
  rw [comma, deepest_neutral_cons neutral_comma, later]

theorem insideNests_named {cs start after back rest : List Char} {name : Option String} {depth : Nat}
    (starts : skipBlank cs = '"' :: start) (named : readString start = some (name, after))
    (colon : skipBlank after = ':' :: back) (nests : InsideNests back depth rest) :
    InsideNests cs depth rest := by
  intro opened
  rw [← deepest_skipBlank, starts, deepest, if_pos rfl, deepest_of_readString named,
    ← deepest_skipBlank _ after, colon, deepest_neutral_cons (by decide), nests]

theorem nestCases : ReadCases ValueNests
    (fun cs items rest => InsideNests cs (Written.depthOfItems items) rest)
    (fun cs members rest => InsideNests cs (depthOfMembers members) rest) where
  null starts := nests_of_word (by simp [Neutral]) starts
  isTrue starts := nests_of_word (by simp [Neutral]) starts
  isFalse starts := nests_of_word (by simp [Neutral]) starts
  str starts read := by
    intro opened
    change _ = max (opened + 0) _
    rw [← deepest_skipBlank, starts, deepest, if_pos rfl, deepest_of_readString read, Nat.add_zero,
      Nat.max_eq_right (le_deepest _ _ _)]
  num read := by
    intro opened
    rw [← deepest_skipBlank]
    exact nests_of_passes (passes_of_readNumeral read) opened
  noItems starts closed := nests_bracket (.inl rfl) starts (insideNests_close (.inl rfl) closed)
  arr starts read := nests_bracket (.inl rfl) starts read
  noMembers starts closed := nests_bracket (.inr rfl) starts (insideNests_close (.inr rfl) closed)
  obj starts read := nests_bracket (.inr rfl) starts read
  lastItem read closed := insideNests_cons read (insideNests_close (.inl rfl) closed)
  item read comma later := insideNests_cons read (insideNests_comma comma later)
  lastMember starts named colon read closed :=
    insideNests_named starts named colon (insideNests_cons read (insideNests_close (.inr rfl) closed))
  member starts named colon read comma later :=
    insideNests_named starts named colon (insideNests_cons read (insideNests_comma comma later))

theorem nesting_of_readDocument {text : String} {written : Written}
    (read : readDocument text.toList = some written) : nesting text = written.depth := by
  unfold readDocument at read
  split at read
  · next value rest inside =>
    split at read
    · next blank =>
      cases read
      have nothing : skipBlank rest = [] := List.isEmpty_iff.mp blank
      rw [nesting, (nestCases.allRead _).1 _ _ _ inside, ← deepest_skipBlank 0 rest, nothing, deepest,
        Nat.zero_add, Nat.max_zero]
    · cases read
  · cases read

theorem depthOfItems_le_iff {items : List Json} {bound : Nat} :
    depthOfItems items ≤ bound ↔ ∀ item ∈ items, item.depth ≤ bound := by
  induction items with
  | nil => simp [depthOfItems]
  | cons item items ih => rw [depthOfItems, Nat.max_le, ih, List.forall_mem_cons]

theorem depthOfFields_le_iff {fields : Fields} {bound : Nat} :
    depthOfFields fields ≤ bound ↔ ∀ field ∈ fields, field.2.depth ≤ bound := by
  induction fields with
  | nil => simp [depthOfFields]
  | cons field fields ih => rw [depthOfFields, Nat.max_le, ih, List.forall_mem_cons]

theorem depthOfFields_putAll_le {read : Written → Option Json} {members : Members} {pairs : Fields}
    (each : List.Forall₂ (Names read) members pairs)
    (values : ∀ member ∈ members, ∀ value, read member.2 = some value →
      value.depth ≤ member.2.depth) :
    depthOfFields (Fields.putAll [] pairs) ≤ depthOfMembers members :=
  depthOfFields_le_iff.mpr <| forall_putAll_of_names each fun member inside value read =>
    Nat.le_trans (values member inside value read) (depth_le_depthOfMembers inside)

theorem depth_le_of_value? {p : Numeral → Prop} {limit : Nat} {written : Written}
    (numerals : AllNumerals p written) {value : Json} (read : value? limit written = some value) :
    value.depth ≤ written.depth := by
  induction numerals generalizing limit value with
  | null =>
    rw [value?_null] at read
    cases read
    exact Nat.le_refl _
  | bool b =>
    rw [value?_bool] at read
    cases read
    exact Nat.le_refl _
  | num here =>
    rw [value?_num, Numeral.value?] at read
    split at read
    · cases read
      exact Nat.le_refl _
    · obtain ⟨x, -, rfl⟩ := Option.map_eq_some_iff.mp read
      unfold ofFloat
      split <;> exact Nat.zero_le _
  | str text =>
    rw [value?_str] at read
    obtain ⟨s, -, rfl⟩ := Option.map_eq_some_iff.mp read
    exact Nat.le_refl _
  | arr each ih =>
    obtain ⟨below, values, -, denoted, rfl⟩ := value?_arr_eq_some_iff.mp read
    rw [depth, Written.depth, Nat.add_le_add_iff_right, depthOfItems_le_iff]
    intro value member
    obtain ⟨item, stands, denotes⟩ := exists_of_mem_forall₂ denoted member
    exact Nat.le_trans (ih item stands denotes) (depth_le_depthOfItems stands)
  | obj each ih =>
    obtain ⟨below, pairs, -, denoted, rfl⟩ := value?_obj_eq_some_iff.mp read
    rw [depth, Written.depth, Nat.add_le_add_iff_right]
    exact depthOfFields_putAll_le denoted fun member inside value read => ih member inside read

end PageTree.Json
