import PageTree.Proofs.Json.Reading

/-!
The value of a text. Its objects are ordered maps: where a name is repeated it keeps its first place
and takes its last value. A text all of whose numbers are 64-bit integers denotes a JSON value whose
written form is the value of the text.
-/

namespace PageTree.Json

namespace Written

def isNull : Written → Bool
  | .null => true
  | _ => false

namespace Members

def member? (members : Members) (name : String) : Option Written :=
  (members.find? fun member => member.1 = some name).map Prod.snd

def set (members : Members) (name : Option String) (value : Written) : Members :=
  match members with
  | [] => [(name, value)]
  | (key, old) :: rest =>
    if key = name then (key, value) :: rest else (key, old) :: set rest name value

def present? (members : Members) (name : String) : Option Written :=
  (members.member? name).filter fun value => !value.isNull

def pick (names : List String) (members : Members) : Members :=
  names.flatMap fun name => ((members.present? name).map fun value => (some name, value)).toList

def others (names : List String) (members : Members) : Members :=
  members.filter fun member => !(names.map some).contains member.1

/-- The members with the given names come first, and all others follow in their own order. -/
def arrange (names : List String) (members : Members) : Members :=
  members.pick names ++ members.others names

end Members

mutual

/-- The value of a written value: the members of each object put together one by one. -/
def merged : Written → Written
  | .arr items => .arr (mergedItems items)
  | .obj members => .obj (mergedMembers members [])
  | scalar => scalar

def mergedItems : List Written → List Written
  | [] => []
  | item :: items => item.merged :: mergedItems items

def mergedMembers : List (Option String × Written) → Members → Members
  | [], before => before
  | (name, value) :: members, before => mergedMembers members (before.set name value.merged)

end

def ofText? (text : String) : Option Written := (readDocument text.toList).map merged

theorem mergedItems_eq_map (items : List Written) : mergedItems items = items.map merged := by
  induction items with
  | nil => rfl
  | cons item items ih => rw [mergedItems, ih, List.map_cons]

namespace Members

theorem member?_set (members : Members) (key name : String) (value : Written) :
    (members.set (some key) value).member? name =
      if key = name then some value else members.member? name := by
  induction members with
  | nil => by_cases same : key = name <;> simp [set, member?, same]
  | cons member members ih =>
    obtain ⟨first, old⟩ := member
    by_cases here : first = some key
    · subst here
      by_cases same : key = name <;> simp [set, member?, same]
    · by_cases there : first = some name
      · have other : key ≠ name := fun same => here (by rw [there, same])
        simp [set, member?, there, other, Ne.symm other]
      · simp only [member?] at ih
        simp only [set, if_neg here, member?, List.find?_cons, there, decide_false, ih]

theorem others_set (names : List String) (members : Members) (key : String) (value : Written) :
    (members.set (some key) value).others names =
      if key ∈ names then members.others names
      else (members.others names).set (some key) value := by
  induction members with
  | nil => by_cases known : key ∈ names <;> simp [set, others, known]
  | cons member members ih =>
    obtain ⟨first, old⟩ := member
    by_cases here : first = some key
    · subst here
      by_cases known : key ∈ names <;> simp [set, others, known]
    · simp only [others] at ih
      by_cases kept : (!(names.map some).contains first) = true
      · by_cases known : key ∈ names <;>
          simp only [set, if_neg here, others, List.filter_cons, if_pos kept, ih, known, if_true,
            if_false]
      · simp only [set, if_neg here, others, List.filter_cons, if_neg kept, ih]

end Members

end Written

open Written (AllNumerals Members Integer merged mergedItems mergedMembers Names value? value?_null
  value?_bool value?_num value?_str value?_arr_eq_some_iff value?_obj_eq_some_iff
  mergedItems_eq_map)

def Merges (member : Option String × Written) (field : String × Json) : Prop :=
  member.1 = some field.1 ∧ field.2.written = member.2.merged

theorem set_writtenFields (fields : Fields) (key : String) (value : Json) :
    Members.set (writtenFields fields) (some key) value.written =
      writtenFields (fields.put key value) := by
  induction fields with
  | nil => rfl
  | cons field fields ih =>
    obtain ⟨name, old⟩ := field
    by_cases same : name = key
    · simp [writtenFields, Members.set, Fields.put, same]
    · simp [writtenFields, Members.set, Fields.put, same, ih]

theorem mergedMembers_writtenFields {members : Members} {fields : Fields}
    (each : List.Forall₂ Merges members fields) (before : Fields) :
    mergedMembers members (writtenFields before) = writtenFields (before.putAll fields) := by
  induction each generalizing before with
  | nil => rfl
  | @cons member field members fields head tail ih =>
    obtain ⟨name, value⟩ := member
    obtain ⟨named, same⟩ := head
    obtain rfl : name = some field.1 := named
    rw [mergedMembers, ← same, set_writtenFields, ih]
    rfl

theorem merged_written {value : Json} (distinct : value.Distinct) :
    value.written.merged = value.written := by
  induction value using parts_induction with
  | step value ih =>
    cases value with
    | arr items =>
      have each : ∀ item ∈ items, item.written.merged = item.written := fun item member =>
        ih item member (distinct.item item member)
      rw [written, merged, mergedItems_eq_map, writtenItems_eq_map, List.map_map]
      exact congrArg _ (List.map_congr_left each)
    | obj fields =>
      have each : List.Forall₂ Merges (writtenFields fields) fields := by
        rw [writtenFields_eq_map, List.forall₂_map_left_iff, List.forall₂_same]
        exact fun field member =>
          ⟨rfl, (ih field.2 (List.mem_map_of_mem member) (distinct.field field member)).symm⟩
      have same : Fields.putAll [] fields = fields := Fields.putAll_of_nodup distinct.here
      have all := mergedMembers_writtenFields each []
      rw [same, writtenFields] at all
      rw [written, merged, all]
    | _ => rfl

theorem map_eq_map_of_forall₂ {α β γ : Type} {f : α → γ} {g : β → γ} {xs : List α} {ys : List β}
    (each : List.Forall₂ (fun x y => f x = g y) xs ys) : xs.map f = ys.map g := by
  rw [← List.forall₂_eq_eq_eq, List.forall₂_map_left_iff, List.forall₂_map_right_iff]
  exact each

theorem merges_of_names {read : Written → Option Json} {members : Members} {pairs : Fields}
    (values : ∀ member ∈ members, ∀ value, read member.2 = some value →
      value.written = member.2.merged)
    (each : List.Forall₂ (Names read) members pairs) : List.Forall₂ Merges members pairs :=
  ((List.forall₂_and_left _ _).mpr ⟨values, each⟩).imp fun _ _ both =>
    ⟨both.2.1, both.1 _ both.2.2⟩

/-- A value that is read from integers has the value of its text as its written form. -/
theorem written_of_value? {limit : Nat} {written : Written}
    (integers : AllNumerals (fun n => n.Spelled ∧ Integer n) written) {value : Json}
    (read : value? limit written = some value) : value.written = written.merged := by
  induction integers generalizing limit value with
  | null =>
    rw [value?_null] at read
    cases read
    rfl
  | bool b =>
    rw [value?_bool] at read
    cases read
    rfl
  | @num n here =>
    obtain ⟨i, kept⟩ := Option.isSome_iff_exists.mp here.2
    rw [value?_num, Numeral.value?, kept] at read
    cases read
    rw [eq_ofInt_of_integer? here.1 kept]
    rfl
  | str text =>
    rw [value?_str] at read
    obtain ⟨s, rfl, rfl⟩ := Option.map_eq_some_iff.mp read
    rfl
  | @arr items each ih =>
    obtain ⟨below, values, -, denoted, rfl⟩ := value?_arr_eq_some_iff.mp read
    have both := (List.forall₂_and_left _ _).mpr ⟨ih, denoted⟩
    have same : List.Forall₂ (fun item value => item.merged = value.written) items values :=
      both.imp fun item value both => (both.1 both.2).symm
    rw [Json.written, merged, mergedItems_eq_map, writtenItems_eq_map, map_eq_map_of_forall₂ same]
  | obj each ih =>
    obtain ⟨below, pairs, -, denoted, rfl⟩ := value?_obj_eq_some_iff.mp read
    have merges := merges_of_names (fun member inside _ => ih member inside) denoted
    rw [Json.written, merged, ← mergedMembers_writtenFields merges []]
    rfl

end PageTree.Json
