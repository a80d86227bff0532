import PageTree.Proofs.Json.Denotation

/-!
What is read from a text. All numerals of a text are spelled as the grammar allows, a value that is
read has distinct names in every object, and one that is read from integers has no other numbers.
-/

namespace PageTree.Json

namespace Written

abbrev Members := List (Option String × Written)

inductive AllNumerals (p : Numeral → Prop) : Written → Prop
  | null : AllNumerals p .null
  | bool (b : Bool) : AllNumerals p (.bool b)
  | num {n : Numeral} (here : p n) : AllNumerals p (.num n)
  | str (text : Option String) : AllNumerals p (.str text)
  | arr {items : List Written} (each : ∀ item ∈ items, AllNumerals p item) :
      AllNumerals p (.arr items)
  | obj {members : Members} (each : ∀ member ∈ members, AllNumerals p member.2) :
      AllNumerals p (.obj members)

/-- A numeral that is an integer of the signed or the unsigned 64-bit range, and not minus zero. -/
def Integer (n : Numeral) : Prop := n.integer?.isSome = true

end Written

open Written (AllNumerals Members Integer Names value? value?_null value?_bool value?_num
  value?_str value?_arr_eq_some_iff value?_obj_eq_some_iff)

theorem spelled_of_readMagnitude {negative : Bool} {cs rest : List Char} {n : Numeral}
    (read : readMagnitude negative cs = some (n, rest)) : n.Spelled := by
  simp only [readMagnitude, Option.bind_eq_bind, Option.bind_eq_some_iff, Option.pure_def,
    Option.some.injEq, Prod.mk.injEq, Prod.exists] at read
  obtain ⟨whole, afterWhole, hasWhole, fraction, afterFraction, -, exponent, _, -, rfl, -⟩ := read
  unfold readWhole at hasWhole
  have digits : ∀ c ∈ (digitsOf cs).1, c.isDigit = true := fun c member =>
    isDigit_of_mem_digitsOf member
  split at hasWhole
  · cases hasWhole
  · cases hasWhole
  · next run left notEmpty single same =>
    obtain ⟨rfl, rfl⟩ := Prod.mk.inj (Option.some.inj hasWhole)
    rw [same] at digits
    refine ⟨digits, notEmpty, fun others zero => ?_⟩
    cases others with
    | nil => rfl
    | cons next others => exact absurd zero (single next others)

theorem spelled_of_readNumeral {cs rest : List Char} {n : Numeral}
    (read : readNumeral cs = some (n, rest)) : n.Spelled := by
  unfold readNumeral at read
  split at read <;> exact spelled_of_readMagnitude read

/-- Facts about what is read from a text and what is left of it, one for each form of a value, of the
rest of an array after its bracket, and of the rest of an object. -/
structure ReadCases (value : List Char → Written → List Char → Prop)
    (items : List Char → List Written → List Char → Prop)
    (members : List Char → Members → List Char → Prop) : Prop where
  null {cs rest : List Char} (starts : skipBlank cs = "null".toList ++ rest) : value cs .null rest
  isTrue {cs rest : List Char} (starts : skipBlank cs = "true".toList ++ rest) :
    value cs (.bool true) rest
  isFalse {cs rest : List Char} (starts : skipBlank cs = "false".toList ++ rest) :
    value cs (.bool false) rest
  str {cs start rest : List Char} {text : Option String} (starts : skipBlank cs = '"' :: start)
    (read : readString start = some (text, rest)) : value cs (.str text) rest
  num {cs rest : List Char} {n : Numeral} (read : readNumeral (skipBlank cs) = some (n, rest)) :
    value cs (.num n) rest
  noItems {cs start rest : List Char} (starts : skipBlank cs = '[' :: start)
    (closed : skipBlank start = ']' :: rest) : value cs (.arr []) rest
  arr {cs start rest : List Char} {inside : List Written} (starts : skipBlank cs = '[' :: start)
    (read : items (skipBlank start) inside rest) : value cs (.arr inside) rest
  noMembers {cs start rest : List Char} (starts : skipBlank cs = '{' :: start)
    (closed : skipBlank start = '}' :: rest) : value cs (.obj []) rest
  obj {cs start rest : List Char} {inside : Members} (starts : skipBlank cs = '{' :: start)
    (read : members (skipBlank start) inside rest) : value cs (.obj inside) rest
  lastItem {cs after rest : List Char} {item : Written} (read : value cs item after)
    (closed : skipBlank after = ']' :: rest) : items cs [item] rest
  item {cs after more rest : List Char} {first : Written} {others : List Written}
    (read : value cs first after) (comma : skipBlank after = ',' :: more)
    (later : items more others rest) : items cs (first :: others) rest
  lastMember {cs start after back left rest : List Char} {name : Option String} {held : Written}
    (starts : skipBlank cs = '"' :: start) (named : readString start = some (name, after))
    (colon : skipBlank after = ':' :: back) (read : value back held left)
    (closed : skipBlank left = '}' :: rest) : members cs [(name, held)] rest
  member {cs start after back left more rest : List Char} {name : Option String} {held : Written}
    {others : Members} (starts : skipBlank cs = '"' :: start)
    (named : readString start = some (name, after)) (colon : skipBlank after = ':' :: back)
    (read : value back held left) (comma : skipBlank left = ',' :: more)
    (later : members more others rest) : members cs ((name, held) :: others) rest

/-- A fact about all that a reader reads. -/
def AllRead (reader : List Char → Option (α × List Char)) (fact : List Char → α → List Char → Prop) :
    Prop :=
  ∀ cs result rest, reader cs = some (result, rest) → fact cs result rest

namespace ReadCases

variable {value : List Char → Written → List Char → Prop}
  {items : List Char → List Written → List Char → Prop}
  {members : List Char → Members → List Char → Prop} (cases : ReadCases value items members)
  {steps : Nat}

include cases

theorem value_succ (itemsRead : AllRead (readItems steps) items)
    (membersRead : AllRead (readFields steps) members) : AllRead (readValue (steps + 1)) value := by
  intro cs written rest read
  unfold readValue at read
  split at read
  · next starts =>
    cases read
    exact cases.null starts
  · next starts =>
    cases read
    exact cases.isTrue starts
  · next starts =>
    cases read
    exact cases.isFalse starts
  · next starts =>
    obtain ⟨result, inside, same⟩ := Option.map_eq_some_iff.mp read
    cases same
    exact cases.str starts inside
  · next starts =>
    split at read
    · next closed =>
      cases read
      exact cases.noItems starts closed
    · obtain ⟨result, inside, same⟩ := Option.map_eq_some_iff.mp read
      cases same
      exact cases.arr starts (itemsRead _ _ _ inside)
  · next starts =>
    split at read
    · next closed =>
      cases read
      exact cases.noMembers starts closed
    · obtain ⟨result, inside, same⟩ := Option.map_eq_some_iff.mp read
      cases same
      exact cases.obj starts (membersRead _ _ _ inside)
  · obtain ⟨result, inside, same⟩ := Option.map_eq_some_iff.mp read
    cases same
    exact cases.num inside

theorem items_succ (valueRead : AllRead (readValue steps) value)
    (itemsRead : AllRead (readItems steps) items) : AllRead (readItems (steps + 1)) items := by
  intro cs inside rest read
  unfold readItems at read
  obtain ⟨⟨item, after⟩, first, read⟩ := Option.bind_eq_some_iff.mp read
  dsimp only at read
  split at read
  · next comma =>
    obtain ⟨result, others, same⟩ := Option.map_eq_some_iff.mp read
    cases same
    exact cases.item (valueRead _ _ _ first) comma (itemsRead _ _ _ others)
  · next closed =>
    cases read
    exact cases.lastItem (valueRead _ _ _ first) closed
  · cases read

theorem members_succ (valueRead : AllRead (readValue steps) value)
    (membersRead : AllRead (readFields steps) members) :
    AllRead (readFields (steps + 1)) members := by
  intro cs inside rest read
  unfold readFields at read
  split at read
  case h_2 => cases read
  next starts =>
  obtain ⟨⟨name, after⟩, named, read⟩ := Option.bind_eq_some_iff.mp read
  dsimp only at read
  split at read
  case h_2 => cases read
  next colon =>
  obtain ⟨⟨held, left⟩, first, read⟩ := Option.bind_eq_some_iff.mp read
  dsimp only at read
  split at read
  · next comma =>
    obtain ⟨result, others, same⟩ := Option.map_eq_some_iff.mp read
    cases same
    exact cases.member starts named colon (valueRead _ _ _ first) comma (membersRead _ _ _ others)
  · next closed =>
    cases read
    exact cases.lastMember starts named colon (valueRead _ _ _ first) closed
  · cases read

/-- Induction over the readers. -/
theorem allRead (steps : Nat) : AllRead (readValue steps) value ∧ AllRead (readItems steps) items ∧
    AllRead (readFields steps) members := by
  induction steps with
  | zero => simp [AllRead, readValue, readItems, readFields]
  | succ steps ih =>
    obtain ⟨valueRead, itemsRead, membersRead⟩ := ih
    exact ⟨cases.value_succ itemsRead membersRead, cases.items_succ valueRead itemsRead,
      cases.members_succ valueRead membersRead⟩

end ReadCases

theorem spelledCases : ReadCases (fun _ value _ => AllNumerals Numeral.Spelled value)
    (fun _ items _ => ∀ item ∈ items, AllNumerals Numeral.Spelled item)
    (fun _ members _ => ∀ member ∈ members, AllNumerals Numeral.Spelled member.2) where
  null _ := .null
  isTrue _ := .bool true
  isFalse _ := .bool false
  str _ _ := .str _
  num read := .num (spelled_of_readNumeral read)
  noItems _ _ := .arr (List.forall_mem_nil _)
  arr _ read := .arr read
  noMembers _ _ := .obj (List.forall_mem_nil _)
  obj _ read := .obj read
  lastItem read _ := List.forall_mem_singleton.mpr read
  item read _ later := List.forall_mem_cons.mpr ⟨read, later⟩
  lastMember _ _ _ read _ := List.forall_mem_singleton.mpr read
  member _ _ _ read _ later := List.forall_mem_cons.mpr ⟨read, later⟩

theorem spelled_of_readDocument {cs : List Char} {written : Written}
    (read : readDocument cs = some written) : AllNumerals Numeral.Spelled written := by
  unfold readDocument at read
  split at read
  · next value rest inside =>
    split at read
    · cases read
      exact (spelledCases.allRead _).1 _ _ _ inside
    · cases read
  · cases read

theorem Written.AllNumerals.imp {p q : Numeral → Prop} (imp : ∀ n, p n → q n) {written : Written}
    (all : AllNumerals p written) : AllNumerals q written := by
  induction all with
  | null => exact .null
  | bool b => exact .bool b
  | num here => exact .num (imp _ here)
  | str text => exact .str text
  | arr each ih => exact .arr ih
  | obj each ih => exact .obj ih

theorem Written.AllNumerals.and {p q : Numeral → Prop} {written : Written}
    (first : AllNumerals p written)
    (second : AllNumerals q written) : AllNumerals (fun n => p n ∧ q n) written := by
  induction first with
  | null => exact .null
  | bool b => exact .bool b
  | num here => cases second with
    | num there => exact .num ⟨here, there⟩
  | str text => exact .str text
  | arr each ih => cases second with
    | arr others => exact .arr fun item member => ih item member (others item member)
  | obj each ih => cases second with
    | obj others => exact .obj fun field member => ih field member (others field member)

theorem forall_putAll_of_names {read : Written → Option Json} {p : Json → Prop} {members : Members}
    {pairs : Fields} (each : List.Forall₂ (Names read) members pairs)
    (values : ∀ member ∈ members, ∀ value, read member.2 = some value → p value) :
    ∀ field ∈ Fields.putAll [] pairs, p field.2 := by
  intro field member
  rcases Fields.mem_putAll member with inPairs | none
  · obtain ⟨written, stands, names⟩ := exists_of_mem_forall₂ each inPairs
    exact values written stands field.2 names.2
  · cases none

/-- Whatever holds of the numbers that are read, and of every other value with distinct names, holds
everywhere in a value that is read. -/
theorem everywhere_of_value? {p : Json → Prop} {q : Numeral → Prop}
    (number : ∀ n value, q n → n.value? = some value → Everywhere p value)
    (others : ∀ value, (∀ n, value ≠ int n) → (∀ bits, value ≠ double bits) →
      NamesDistinct value → p value)
    {limit : Nat} {written : Written} (numerals : AllNumerals q written) {value : Json}
    (read : value? limit written = some value) : Everywhere p value := by
  induction numerals generalizing limit value with
  | null =>
    rw [value?_null] at read
    cases read
    exact .intro (others _ (by simp) (by simp) trivial) (by simp [parts])
  | bool b =>
    rw [value?_bool] at read
    cases read
    exact .intro (others _ (by simp) (by simp) trivial) (by simp [parts])
  | @num n here =>
    rw [value?_num] at read
    exact number n value here read
  | str text =>
    rw [value?_str] at read
    obtain ⟨s, -, rfl⟩ := Option.map_eq_some_iff.mp read
    exact .intro (others _ (by simp) (by simp) trivial) (by simp [parts])
  | arr each ih =>
    obtain ⟨below, values, -, denoted, rfl⟩ := value?_arr_eq_some_iff.mp read
    refine .intro (others _ (by simp) (by simp) trivial) fun part member => ?_
    obtain ⟨item, stands, denotes⟩ := exists_of_mem_forall₂ denoted member
    exact ih item stands denotes
  | obj each ih =>
    obtain ⟨below, pairs, -, denoted, rfl⟩ := value?_obj_eq_some_iff.mp read
    have distinct : (Fields.names (Fields.putAll [] pairs)).Nodup :=
      Fields.nodup_putAll (by simp [Fields.names]) pairs
    refine .intro (others _ (by simp) (by simp) distinct) fun part member => ?_
    obtain ⟨field, stands, rfl⟩ := List.mem_map.mp member
    exact forall_putAll_of_names denoted (fun member inside value read => ih member inside read)
      field stands

theorem distinct_of_number {n : Numeral} {value : Json} (read : n.value? = some value) :
    value.Distinct := by
  unfold Numeral.value? at read
  split at read
  · cases read
    exact .intro trivial (by simp [parts])
  · obtain ⟨x, -, rfl⟩ := Option.map_eq_some_iff.mp read
    unfold ofFloat
    split <;> exact .intro trivial (by simp [parts])

theorem distinct_of_value? {limit : Nat} {written : Written}
    (spelled : AllNumerals Numeral.Spelled written) {value : Json}
    (read : value? limit written = some value) : value.Distinct :=
  everywhere_of_value? (fun _ _ _ number => distinct_of_number number)
    (fun _ _ _ distinct => distinct) spelled read

theorem integral_of_value? {limit : Nat} {written : Written}
    (integers : AllNumerals Integer written)
    {value : Json} (read : value? limit written = some value) : value.Integral := by
  refine everywhere_of_value? (fun n value kept read => ?_) (fun value noInt noDouble _ => ?_)
    integers read
  · obtain ⟨i, kept⟩ := Option.isSome_iff_exists.mp kept
    rw [Numeral.value?, kept] at read
    cases read
    exact .intro (inRange_of_integer? kept) (by simp [parts])
  · cases value with
    | int n => exact absurd rfl (noInt n)
    | double bits => exact absurd rfl (noDouble bits)
    | _ => trivial

end PageTree.Json
