import Mathlib.Data.List.Nodup
import PageTree.Proofs.Json.Numeral

/-!
Values and what they are made of. A property of a value that speaks of all values inside it holds
everywhere in it, and a fact about all values follows from the same fact about the parts of each.
The text of a value without doubles is the writing of one `Written` value, its written form.
-/

namespace PageTree.Json

/-- The values directly inside a value. -/
def parts : Json → List Json
  | arr items => items
  | obj fields => fields.map Prod.snd
  | _ => []

theorem sizeOf_lt_of_mem_parts {part value : Json} (member : part ∈ value.parts) :
    sizeOf part < sizeOf value := by
  cases value with
  | arr items =>
    have inside := List.sizeOf_lt_of_mem (show part ∈ items from member)
    simp only [arr.sizeOf_spec]
    omega
  | obj fields =>
    obtain ⟨⟨key, value⟩, stands, rfl⟩ :=
      List.mem_map.mp (show part ∈ fields.map Prod.snd from member)
    have inside := List.sizeOf_lt_of_mem stands
    simp only [Prod.mk.sizeOf_spec, obj.sizeOf_spec] at inside ⊢
    omega
  | null => exact absurd member (by simp [parts])
  | bool b => exact absurd member (by simp [parts])
  | int n => exact absurd member (by simp [parts])
  | double bits => exact absurd member (by simp [parts])
  | str s => exact absurd member (by simp [parts])

/-- Induction over a value: a fact may be assumed of all parts of a value. -/
theorem parts_induction {motive : Json → Prop}
    (step : ∀ value : Json, (∀ part ∈ value.parts, motive part) → motive value) (value : Json) :
    motive value :=
  step value fun part _ => parts_induction step part
termination_by sizeOf value
decreasing_by exact sizeOf_lt_of_mem_parts (by assumption)

inductive Everywhere (p : Json → Prop) : Json → Prop
  | intro {value : Json} (here : p value) (inside : ∀ part ∈ value.parts, Everywhere p part) :
      Everywhere p value

theorem Everywhere.here {p : Json → Prop} {value : Json} (all : Everywhere p value) : p value := by
  cases all with
  | intro here inside => exact here

theorem Everywhere.inside {p : Json → Prop} {value : Json} (all : Everywhere p value) :
    ∀ part ∈ value.parts, Everywhere p part := by
  cases all with
  | intro here inside => exact inside

theorem Everywhere.item {p : Json → Prop} {items : List Json} (all : Everywhere p (arr items)) :
    ∀ item ∈ items, Everywhere p item := all.inside

theorem Everywhere.field {p : Json → Prop} {fields : Fields} (all : Everywhere p (obj fields)) :
    ∀ field ∈ fields, Everywhere p field.2 :=
  fun _ member => all.inside _ (List.mem_map_of_mem member)

def NumberInRange : Json → Prop
  | int n => InRange n
  | double _ => False
  | _ => True

def NamesDistinct : Json → Prop
  | obj fields => (fields.map Prod.fst).Nodup
  | _ => True

def Integral (value : Json) : Prop := Everywhere NumberInRange value

def Distinct (value : Json) : Prop := Everywhere NamesDistinct value

theorem Integral.range {n : Int} (integral : Integral (int n)) : InRange n := integral.here

theorem integral_null : Integral null := .intro trivial nofun

theorem integral_str (s : String) : Integral (str s) := .intro trivial nofun

theorem integral_int_iff {n : Int} : Integral (int n) ↔ InRange n :=
  ⟨Integral.range, fun range => .intro range nofun⟩

theorem integral_arr_iff {items : List Json} :
    Integral (arr items) ↔ ∀ item ∈ items, item.Integral :=
  ⟨Everywhere.item, fun all => .intro trivial all⟩

theorem integral_obj_iff {fields : Fields} :
    Integral (obj fields) ↔ ∀ field ∈ fields, field.2.Integral :=
  ⟨Everywhere.field, fun all => .intro trivial (List.forall_mem_map.mpr all)⟩

theorem not_integral_double (bits : UInt64) : ¬ Integral (double bits) := fun all => all.here

mutual

/-- The written form of a value. A double is given a numeral without digits, which no text has. -/
def written : Json → Written
  | null => .null
  | bool b => .bool b
  | int n => .num (.ofInt n)
  | double _ => .num ⟨false, [], [], none⟩
  | str s => .str (some s)
  | arr items => .arr (writtenItems items)
  | obj fields => .obj (writtenFields fields)

def writtenItems : List Json → List Written
  | [] => []
  | item :: items => item.written :: writtenItems items

def writtenFields : List (String × Json) → List (Option String × Written)
  | [] => []
  | (key, value) :: fields => (some key, value.written) :: writtenFields fields

end

theorem writtenItems_eq_map (items : List Json) : writtenItems items = items.map written := by
  induction items with
  | nil => rfl
  | cons item items ih => rw [writtenItems, ih, List.map_cons]

theorem writtenFields_eq_map (fields : Fields) :
    writtenFields fields = fields.map fun field => (some field.1, field.2.written) := by
  induction fields with
  | nil => rfl
  | cons field fields ih => rw [writtenFields, ih, List.map_cons]

end PageTree.Json
