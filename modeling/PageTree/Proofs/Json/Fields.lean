import Mathlib.Data.List.Nodup
import PageTree.Json.Basic

/-!
Lists of fields. Putting a field keeps the names of a list distinct and never moves a field that is
there; fields with distinct names put one after the other are simply appended. An entry is a field
that may be missing.
-/

namespace PageTree.Json.Fields

def names (fields : Fields) : List String := fields.map Prod.fst

theorem mem_names_put {fields : Fields} {key name : String} {value : Json} :
    name ∈ names (fields.put key value) ↔ name = key ∨ name ∈ names fields := by
  induction fields with
  | nil => simp [put, names]
  | cons field fields ih =>
    obtain ⟨k, v⟩ := field
    by_cases same : k = key
    · subst same
      simp [put, names]
    · simp only [names] at ih
      simp only [put, if_neg same, names, List.map_cons, List.mem_cons, ih]
      exact or_left_comm

theorem nodup_put {fields : Fields} (distinct : (names fields).Nodup) (key : String)
    (value : Json) : (names (fields.put key value)).Nodup := by
  induction fields with
  | nil => simp [put, names]
  | cons field fields ih =>
    obtain ⟨k, v⟩ := field
    obtain ⟨fresh, rest⟩ := List.nodup_cons.mp distinct
    by_cases same : k = key
    · subst same
      simpa [put, names] using distinct
    · simp only [put, if_neg same, names, List.map_cons]
      refine List.nodup_cons.mpr ⟨fun member => ?_, ih rest⟩
      rcases mem_names_put.mp member with again | inside
      · exact same again
      · exact fresh inside

theorem put_of_not_mem {fields : Fields} {key : String} (absent : key ∉ names fields)
    (value : Json) : fields.put key value = fields ++ [(key, value)] := by
  induction fields with
  | nil => rfl
  | cons field fields ih =>
    obtain ⟨k, v⟩ := field
    simp only [names, List.map_cons, List.mem_cons, not_or] at absent
    rw [put, if_neg (Ne.symm absent.1), ih absent.2, List.cons_append]

theorem put_put (fields : Fields) (key : String) (before value : Json) :
    (fields.put key before).put key value = fields.put key value := by
  induction fields with
  | nil => simp [put]
  | cons field fields ih =>
    obtain ⟨k, v⟩ := field
    by_cases same : k = key
    · simp [put, same]
    · simp [put, same, ih]

theorem remove_remove (fields : Fields) (key : String) :
    (fields.remove key).remove key = fields.remove key := by
  rw [remove, remove, List.filter_filter]
  simp only [Bool.and_self]

theorem remove_put_of_ne {key other : String} (apart : key ≠ other) (fields : Fields)
    (value : Json) : (fields.put key value).remove other = (fields.remove other).put key value := by
  induction fields with
  | nil => simp [put, remove, apart]
  | cons field fields ih =>
    obtain ⟨k, v⟩ := field
    rw [remove] at ih
    by_cases same : k = key
    · subst same
      simp [put, remove, apart]
    · by_cases removed : k = other
      · subst removed
        simpa [put, remove, same] using ih
      · simpa [put, remove, same, removed] using ih

theorem mem_put {fields : Fields} {key : String} {value : Json} {field : String × Json}
    (member : field ∈ fields.put key value) : field = (key, value) ∨ field ∈ fields := by
  induction fields with
  | nil => exact Or.inl (by simpa [put] using member)
  | cons first fields ih =>
    obtain ⟨k, v⟩ := first
    by_cases same : k = key
    · subst same
      simp only [put, if_true, List.mem_cons] at member ⊢
      exact member.imp_right Or.inr
    · simp only [put, if_neg same, List.mem_cons] at member ⊢
      rcases member with rfl | inside
      · exact Or.inr (Or.inl rfl)
      · rcases ih inside with rfl | old
        · exact Or.inl rfl
        · exact Or.inr (Or.inr old)

/-- A list of fields before and after one of them is set: in its place if its name is there, else at
the end. -/
inductive Sets (key : String) (value : Json) : Fields → Fields → Prop
  | replaced {front back : Fields} {old : Json} (fresh : key ∉ names front) :
      Sets key value (front ++ (key, old) :: back) (front ++ (key, value) :: back)
  | appended {fields : Fields} (fresh : key ∉ names fields) :
      Sets key value fields (fields ++ [(key, value)])

theorem put_append_cons {front : Fields} {key : String} (fresh : key ∉ names front) (old : Json)
    (back : Fields) (value : Json) :
    put (front ++ (key, old) :: back) key value = front ++ (key, value) :: back := by
  induction front with
  | nil => exact if_pos rfl
  | cons field front ih =>
    obtain ⟨k, v⟩ := field
    simp only [names, List.map_cons, List.mem_cons, not_or] at fresh
    rw [List.cons_append, put, if_neg (Ne.symm fresh.1), ih fresh.2, List.cons_append]

theorem sets_put (fields : Fields) (key : String) (value : Json) :
    Sets key value fields (fields.put key value) := by
  by_cases member : key ∈ names fields
  · obtain ⟨before, after, split, fresh⟩ := List.eq_append_cons_of_mem member
    obtain ⟨front, others, rfl, rfl, rest⟩ := List.map_eq_append_iff.mp split
    obtain ⟨⟨_, old⟩, back, rfl, rfl, -⟩ := List.map_eq_cons_iff.mp rest
    rw [put_append_cons fresh]
    exact .replaced fresh
  · rw [put_of_not_mem member]
    exact .appended member

theorem Sets.mem_names {key name : String} {value : Json} {fields set : Fields}
    (sets : Sets key value fields set) (member : name ∈ names set) :
    name = key ∨ name ∈ names fields := by
  cases sets with
  | replaced =>
    right
    simpa [names] using member
  | appended => simpa [names, or_comm] using member

def putAll (fields pairs : Fields) : Fields :=
  pairs.foldl (fun fields pair => fields.put pair.1 pair.2) fields

theorem nodup_putAll {fields : Fields} (distinct : (names fields).Nodup) (pairs : Fields) :
    (names (fields.putAll pairs)).Nodup := by
  induction pairs generalizing fields with
  | nil => exact distinct
  | cons pair pairs ih => exact ih (nodup_put distinct pair.1 pair.2)

theorem mem_putAll {fields pairs : Fields} {field : String × Json}
    (member : field ∈ fields.putAll pairs) : field ∈ pairs ∨ field ∈ fields := by
  induction pairs generalizing fields with
  | nil => exact Or.inr member
  | cons pair pairs ih =>
    rcases ih member with later | earlier
    · exact Or.inl (List.mem_cons_of_mem _ later)
    · rcases mem_put earlier with rfl | old
      · exact Or.inl List.mem_cons_self
      · exact Or.inr old

theorem putAll_of_nodup {fields pairs : Fields} (distinct : (names (fields ++ pairs)).Nodup) :
    fields.putAll pairs = fields ++ pairs := by
  induction pairs generalizing fields with
  | nil => simp [putAll]
  | cons pair pairs ih =>
    have absent : pair.1 ∉ names fields := by
      intro member
      simp only [names, List.map_append, List.map_cons] at distinct
      exact (List.nodup_append.mp distinct).2.2 pair.1 member pair.1 List.mem_cons_self rfl
    have appended : (names ((fields ++ [pair]) ++ pairs)).Nodup := by simpa [names] using distinct
    have next := ih appended
    have step : fields.putAll (pair :: pairs) = (fields.put pair.1 pair.2).putAll pairs := rfl
    rw [step, put_of_not_mem absent, next, List.append_assoc, List.singleton_append]

def entry (key : String) (value : Option Json) : Fields := (value.map fun v => (key, v)).toList

theorem mem_entry {key : String} {value : Option Json} {field : String × Json} :
    field ∈ entry key value ↔ field.1 = key ∧ value = some field.2 := by
  obtain ⟨name, v⟩ := field
  cases value with
  | none => simp [entry]
  | some u =>
    simp only [entry, Option.map_some, Option.toList_some, List.mem_singleton, Prod.mk.injEq,
      Option.some.injEq]
    exact and_congr_right fun _ => eq_comm

theorem names_append (fields others : Fields) :
    names (fields ++ others) = names fields ++ names others := List.map_append

theorem names_entry (key : String) (value : Option Json) :
    (names (entry key value)).Sublist [key] := by
  cases value with
  | none => exact List.nil_sublist _
  | some v => exact List.Sublist.refl _

theorem lookup_append (fields others : Fields) (key : String) :
    lookup (fields ++ others) key = (lookup fields key).or (lookup others key) := by
  induction fields with
  | nil => rfl
  | cons field fields ih =>
    obtain ⟨k, v⟩ := field
    by_cases same : k = key
    · simp [lookup, same]
    · simp only [List.cons_append, lookup, if_neg same, ih]

theorem lookup_entry (key : String) (value : Option Json) (name : String) :
    lookup (entry key value) name = if key = name then value else none := by
  cases value with
  | none => simp [entry, lookup]
  | some v => simp [entry, lookup]

theorem lookup_of_not_mem {fields : Fields} {key : String} (absent : key ∉ names fields) :
    lookup fields key = none := by
  induction fields with
  | nil => rfl
  | cons field fields ih =>
    obtain ⟨k, v⟩ := field
    simp only [names, List.map_cons, List.mem_cons, not_or] at absent
    rw [lookup, if_neg (Ne.symm absent.1), ih absent.2]

end PageTree.Json.Fields
