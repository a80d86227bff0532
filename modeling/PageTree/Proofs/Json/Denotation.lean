import Mathlib.Data.List.Forall2
import PageTree.Proofs.Json.Fields
import PageTree.Proofs.Json.Nesting

/-!
What a written value denotes. A list is read by reading each of its members, and the fields of an
object are read one by one and put together, so that a name that is already there keeps its place.
The written form of a value denotes the value itself as soon as the limit allows its depth, and
nothing before.
-/

namespace PageTree

theorem mapM_eq_some_iff {α β : Type} {f : α → Option β} {xs : List α} {ys : List β} :
    xs.mapM f = some ys ↔ List.Forall₂ (fun x y => f x = some y) xs ys := by
  induction xs generalizing ys with
  | nil => cases ys <;> simp
  | cons x xs ih =>
    cases ys with
    | nil => simp [List.mapM_cons, Option.bind_eq_some_iff]
    | cons y ys =>
      rw [List.forall₂_cons, ← ih, List.mapM_cons]
      cases f x with
      | none => simp
      | some z => cases xs.mapM f <;> simp

theorem exists_of_mem_forall₂ {α β : Type} {related : α → β → Prop} {xs : List α} {ys : List β}
    (each : List.Forall₂ related xs ys) {y : β} (member : y ∈ ys) : ∃ x ∈ xs, related x y := by
  induction each with
  | nil => cases member
  | @cons x y' xs ys head tail ih =>
    rcases List.mem_cons.mp member with rfl | inside
    · exact ⟨x, List.mem_cons_self, head⟩
    · obtain ⟨x', stands, holds⟩ := ih inside
      exact ⟨x', List.mem_cons_of_mem _ stands, holds⟩

namespace Json.Written

/-- A field as it stands in a text and the field that it denotes. -/
def Names (read : Written → Option Json) (field : Option String × Written)
    (pair : String × Json) : Prop := field.1 = some pair.1 ∧ read field.2 = some pair.2

theorem fieldsOf_eq_some_iff {read : Written → Option Json}
    {fields : List (Option String × Written)} {acc result : Fields} :
    fieldsOf read fields acc = some result ↔
      ∃ pairs, List.Forall₂ (Names read) fields pairs ∧ acc.putAll pairs = result := by
  induction fields generalizing acc with
  | nil => simp [fieldsOf, Fields.putAll]
  | cons field fields ih =>
    obtain ⟨name, value⟩ := field
    constructor
    · intro done
      simp only [fieldsOf, Option.bind_eq_bind, Option.bind_eq_some_iff] at done
      obtain ⟨key, named, json, denoted, rest⟩ := done
      obtain ⟨pairs, each, same⟩ := ih.mp rest
      exact ⟨(key, json) :: pairs, .cons ⟨named, denoted⟩ each, same⟩
    · intro parts
      obtain ⟨pairs, each, same⟩ := parts
      cases each with
      | @cons _ pair _ pairs head tail =>
        obtain ⟨named, denoted⟩ := head
        simp only [fieldsOf, Option.bind_eq_bind, Option.bind_eq_some_iff]
        exact ⟨pair.1, named, pair.2, denoted, ih.mpr ⟨pairs, tail, same⟩⟩

theorem value?_null (limit : Nat) : value? limit .null = some .null := by
  cases limit <;> rfl

theorem value?_bool (limit : Nat) (b : Bool) : value? limit (.bool b) = some (.bool b) := by
  cases limit <;> rfl

theorem value?_num (limit : Nat) (n : Numeral) : value? limit (.num n) = n.value? := by
  cases limit <;> rfl

theorem value?_str (limit : Nat) (text : Option String) :
    value? limit (.str text) = text.map .str := by
  cases limit <;> rfl

/-- An object takes one level and denotes the fields of its members, put together from the left. -/
theorem value?_obj_eq_some_iff {limit : Nat} {fields : List (Option String × Written)}
    {value : Json} : value? limit (.obj fields) = some value ↔ ∃ below pairs, limit = below + 1 ∧
      List.Forall₂ (Names (value? below)) fields pairs ∧
        value = .obj (Fields.putAll [] pairs) := by
  cases limit with
  | zero => simp [value?]
  | succ limit =>
    simp only [value?, Option.map_eq_some_iff, fieldsOf_eq_some_iff]
    constructor
    · intro read
      obtain ⟨_, ⟨pairs, each, rfl⟩, rfl⟩ := read
      exact ⟨limit, pairs, rfl, each, rfl⟩
    · intro parts
      obtain ⟨below, pairs, level, each, rfl⟩ := parts
      obtain rfl := Nat.succ.inj level
      exact ⟨_, ⟨pairs, each, rfl⟩, rfl⟩

theorem value?_arr_eq_some_iff {limit : Nat} {items : List Written} {value : Json} :
    value? limit (.arr items) = some value ↔ ∃ below values, limit = below + 1 ∧
      List.Forall₂ (fun item v => value? below item = some v) items values ∧
        value = .arr values := by
  cases limit with
  | zero => simp [value?]
  | succ limit =>
    simp only [value?, Option.map_eq_some_iff, mapM_eq_some_iff]
    constructor
    · intro read
      obtain ⟨values, each, rfl⟩ := read
      exact ⟨limit, values, rfl, each, rfl⟩
    · intro parts
      obtain ⟨below, values, level, each, rfl⟩ := parts
      obtain rfl := Nat.succ.inj level
      exact ⟨values, each, rfl⟩

end Json.Written

namespace Json

open Written (value? Names value?_obj_eq_some_iff value?_arr_eq_some_iff)

/-- A value whose written form denotes it exactly within the limits that allow its depth. -/
def Denotes (value : Json) : Prop :=
  ∀ limit result, value? limit value.written = some result ↔ result = value ∧ value.depth ≤ limit

theorem forall₂_written_iff {items results : List Json} (each : ∀ item ∈ items, Denotes item)
    (limit : Nat) :
    List.Forall₂ (fun item v => value? limit item = some v) (writtenItems items) results ↔
      results = items ∧ depthOfItems items ≤ limit := by
  induction items generalizing results with
  | nil => simp [writtenItems, depthOfItems]
  | cons item items ih =>
    have rest : ∀ x ∈ items, Denotes x := fun x member => each x (List.mem_cons_of_mem _ member)
    have first := each item List.mem_cons_self limit
    cases results with
    | nil => simp [writtenItems]
    | cons result results =>
      rw [writtenItems, List.forall₂_cons, first, ih rest, depthOfItems, Nat.max_le]
      simp only [List.cons.injEq]
      exact and_and_and_comm

theorem forall₂_names_written_iff {fields pairs : Fields}
    (each : ∀ field ∈ fields, Denotes field.2) (limit : Nat) :
    List.Forall₂ (Names (value? limit)) (writtenFields fields) pairs ↔
      pairs = fields ∧ depthOfFields fields ≤ limit := by
  induction fields generalizing pairs with
  | nil => simp [writtenFields, depthOfFields]
  | cons field fields ih =>
    obtain ⟨key, value⟩ := field
    have rest : ∀ x ∈ fields, Denotes x.2 := fun x member => each x (List.mem_cons_of_mem _ member)
    have first := each (key, value) List.mem_cons_self limit
    cases pairs with
    | nil => simp [writtenFields]
    | cons pair pairs =>
      obtain ⟨name, result⟩ := pair
      rw [writtenFields, List.forall₂_cons, Names, first, ih rest, depthOfFields, Nat.max_le]
      simp only [List.cons.injEq, Prod.mk.injEq, Option.some.injEq, eq_comm (a := key)]
      rw [← and_assoc (a := name = key) (b := result = value), and_and_and_comm]

theorem denotes_of_integral {value : Json} (integral : value.Integral) (distinct : value.Distinct) :
    Denotes value := by
  induction value using parts_induction with
  | step value ih =>
    intro limit result
    cases value with
    | null => simp [written, value?, depth, eq_comm]
    | bool b => simp [written, value?, depth, eq_comm]
    | int n =>
      simp [written, value?, Numeral.value?, integer?_ofInt integral.range, depth, eq_comm]
    | double bits => exact absurd integral (not_integral_double bits)
    | str s => simp [written, value?, depth, eq_comm]
    | arr items =>
      have each : ∀ item ∈ items, Denotes item := fun item member =>
        ih item member (integral.item item member) (distinct.item item member)
      rw [written, value?_arr_eq_some_iff, depth]
      simp only [forall₂_written_iff each]
      constructor
      · intro read
        obtain ⟨below, _, rfl, ⟨rfl, fits⟩, rfl⟩ := read
        exact ⟨rfl, Nat.add_le_add_right fits 1⟩
      · intro both
        obtain ⟨rfl, fits⟩ := both
        exact ⟨limit - 1, items, by omega, ⟨rfl, by omega⟩, rfl⟩
    | obj fields =>
      have each : ∀ field ∈ fields, Denotes field.2 := fun field member =>
        ih field.2 (List.mem_map_of_mem member) (integral.field field member)
          (distinct.field field member)
      have same : Fields.putAll [] fields = fields := Fields.putAll_of_nodup distinct.here
      rw [written, value?_obj_eq_some_iff, depth]
      simp only [forall₂_names_written_iff each]
      constructor
      · intro read
        obtain ⟨below, _, rfl, ⟨rfl, fits⟩, rfl⟩ := read
        exact ⟨by rw [same], Nat.add_le_add_right fits 1⟩
      · intro both
        obtain ⟨rfl, fits⟩ := both
        exact ⟨limit - 1, fields, by omega, ⟨rfl, by omega⟩, by rw [same]⟩

end Json

end PageTree
