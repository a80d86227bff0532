import PageTree.Proofs.Toml.Distinct
import PageTree.Site.Config

/-!
Records that are read entry by entry. Where no name comes twice, the value of each field depends on
the entry under its name alone: it is what that entry reads as, or else what it was at the start. So
the order of the entries does not matter, and whether one is left out depends on its name alone.
-/

namespace PageTree.Config

/-- What a field holds after reading: what the entry under its name reads as, if there is one. -/
def Field.Reads (field : Field σ) (start record : σ) : Option Toml → Prop
  | none => field.get record = field.get start
  | some value => ∃ inside, field.read value = some (field.get record, inside)

/-- Each field of a record has been read from the entry under its name. -/
def ReadFrom (fields : List (Field σ)) (entries : Toml.Table) (start record : σ) : Prop :=
  ∀ field ∈ fields, field.Reads start record (entries.lookup field.name)

/-- Fields have names of their own, and setting one does not touch the others. -/
structure Lawful (fields : List (Field σ)) : Prop where
  names : (fields.map Field.name).Nodup
  get_set : ∀ field ∈ fields, ∀ value record, field.get (field.set value record) = value
  get_set_of_ne : ∀ field ∈ fields, ∀ other ∈ fields, field.name ≠ other.name →
    ∀ value record, field.get (other.set value record) = field.get record

def leftAt (fields : List (Field σ)) (entry : String × Toml) : List Trail :=
  match fields.find? fun field => field.name = entry.1 with
  | none => [[entry.1]]
  | some field => (((field.read entry.2).map Prod.snd).getD []).map (entry.1 :: ·)

theorem readEntries_cons_of_none {fields : List (Field σ)} {key : String}
    (none : fields.find? (fun field => field.name = key) = none) (value : Toml)
    (entries : Toml.Table) (start record : σ) (trails : List Trail) :
    readEntries fields ((key, value) :: entries) start = some (record, trails) ↔
      ∃ others, readEntries fields entries start = some (record, others) ∧
        trails = [key] :: others := by
  simp only [readEntries, none, bind, pure, Option.bind_eq_some_iff, Option.some.injEq,
    Prod.exists, Prod.mk.injEq]
  constructor
  · rintro ⟨_, others, rest, rfl, rfl⟩
    exact ⟨others, rest, rfl⟩
  · rintro ⟨others, rest, rfl⟩
    exact ⟨record, others, rest, rfl, rfl⟩

theorem readEntries_cons_of_some {fields : List (Field σ)} {key : String} {field : Field σ}
    (found : fields.find? (fun field => field.name = key) = some field) (value : Toml)
    (entries : Toml.Table) (start record : σ) (trails : List Trail) :
    readEntries fields ((key, value) :: entries) start = some (record, trails) ↔
      ∃ content inside others, field.read value = some (content, inside) ∧
        readEntries fields entries (field.set content start) = some (record, others) ∧
        trails = inside.map (key :: ·) ++ others := by
  simp only [readEntries, found, bind, pure, Option.bind_eq_some_iff, Option.some.injEq,
    Prod.exists, Prod.mk.injEq]
  constructor
  · rintro ⟨content, inside, here, _, others, rest, rfl, rfl⟩
    exact ⟨content, inside, others, here, rest, rfl⟩
  · rintro ⟨content, inside, others, here, rest, rfl⟩
    exact ⟨content, inside, here, record, others, rest, rfl, rfl⟩

theorem left_of_readEntries {fields : List (Field σ)} {entries : Toml.Table} {start record : σ}
    {trails : List Trail} (read : readEntries fields entries start = some (record, trails)) :
    trails = entries.flatMap (leftAt fields) := by
  induction entries generalizing start trails with
  | nil =>
    obtain ⟨-, rfl⟩ := Prod.mk.inj (Option.some.inj read)
    rfl
  | cons entry entries ih =>
    obtain ⟨key, value⟩ := entry
    rw [List.flatMap_cons, leftAt]
    cases found : fields.find? fun field => field.name = key with
    | none =>
      obtain ⟨others, rest, same⟩ := (readEntries_cons_of_none found ..).mp read
      rw [same, ih rest]
      rfl
    | some field =>
      obtain ⟨content, inside, others, here, rest, same⟩ :=
        (readEntries_cons_of_some found ..).mp read
      rw [same, ih rest]
      simp only [here, Option.map_some, Option.getD_some]

section Lawful

variable {fields : List (Field σ)}

theorem Lawful.eq_of_name (lawful : Lawful fields) {field other : Field σ} (member : field ∈ fields)
    (known : other ∈ fields) (same : field.name = other.name) : field = other :=
  List.inj_on_of_nodup_map lawful.names member known same

theorem name_of_find? {key : String} {field : Field σ}
    (found : fields.find? (fun field => field.name = key) = some field) :
    field ∈ fields ∧ field.name = key :=
  ⟨List.mem_of_find?_eq_some found, by simpa using List.find?_some found⟩

theorem Lawful.sublist (lawful : Lawful fields) {others : List (Field σ)}
    (sub : others.Sublist fields) : Lawful others where
  names := lawful.names.sublist (sub.map Field.name)
  get_set field member := lawful.get_set field (sub.subset member)
  get_set_of_ne field member other known :=
    lawful.get_set_of_ne field (sub.subset member) other (sub.subset known)

theorem Lawful.reads_of_set (lawful : Lawful fields) {field owner : Field σ} (member : field ∈ fields)
    (known : owner ∈ fields) (apart : field.name ≠ owner.name) {content : owner.Value}
    {start record : σ} {found : Option Toml}
    (reads : field.Reads (owner.set content start) record found) :
    field.Reads start record found := by
  cases found with
  | none =>
    rw [Field.Reads, lawful.get_set_of_ne field member owner known apart] at reads
    exact reads
  | some value => exact reads

/-- What is set stays, since its name does not come again. -/
theorem Lawful.readFrom (lawful : Lawful fields) {entries : Toml.Table}
    (distinct : (entries.map Prod.fst).Nodup) {start record : σ} {trails : List Trail}
    (read : readEntries fields entries start = some (record, trails)) :
    ReadFrom fields entries start record := by
  induction entries generalizing start trails with
  | nil =>
    obtain ⟨rfl, -⟩ := Prod.mk.inj (Option.some.inj read)
    exact fun field _ => rfl
  | cons entry entries ih =>
    obtain ⟨key, value⟩ := entry
    obtain ⟨fresh, others⟩ := List.nodup_cons.mp distinct
    have absent : entries.lookup key = none := lookup_eq_none_iff_not_mem.mpr fresh
    intro field member
    rw [List.lookup_cons]
    cases found : fields.find? fun field => field.name = key with
    | none =>
      obtain ⟨_, rest, -⟩ := (readEntries_cons_of_none found ..).mp read
      have other : (field.name == key) = false := by
        simpa using List.find?_eq_none.mp found field member
      simp only [other]
      exact ih others rest field member
    | some owner =>
      obtain ⟨content, inside, _, here, rest, -⟩ := (readEntries_cons_of_some found ..).mp read
      obtain ⟨known, rfl⟩ := name_of_find? found
      have later := ih others rest field member
      by_cases same : field.name = owner.name
      · obtain rfl := lawful.eq_of_name member known same
        rw [absent, Field.Reads, lawful.get_set field member] at later
        simp only [beq_self_eq_true]
        exact ⟨inside, by rw [here, later]⟩
      · have other : (field.name == owner.name) = false := by simpa using same
        simp only [other]
        exact lawful.reads_of_set member known same later

theorem exists_readEntries {entries : Toml.Table} (readable : ∀ entry ∈ entries, ∀ field ∈ fields,
      field.name = entry.1 → ∃ content, field.read entry.2 = some content) (start : σ) :
    ∃ record trails, readEntries fields entries start = some (record, trails) := by
  induction entries generalizing start with
  | nil => exact ⟨start, [], rfl⟩
  | cons entry entries ih =>
    obtain ⟨here, later⟩ := List.forall_mem_cons.mp readable
    obtain ⟨key, value⟩ := entry
    cases found : fields.find? fun field => field.name = key with
    | none =>
      obtain ⟨record, trails, rest⟩ := ih later start
      exact ⟨record, _, (readEntries_cons_of_none found ..).mpr ⟨trails, rest, rfl⟩⟩
    | some field =>
      obtain ⟨member, same⟩ := name_of_find? found
      obtain ⟨⟨content, inside⟩, read⟩ := here field member same
      obtain ⟨record, trails, rest⟩ := ih later (field.set content start)
      exact ⟨record, _,
        (readEntries_cons_of_some found ..).mpr ⟨content, inside, trails, read, rest, rfl⟩⟩

theorem ReadFrom.get_eq {entries : Toml.Table} {start record other : σ}
    (read : ReadFrom fields entries start record) (also : ReadFrom fields entries start other) :
    ∀ field ∈ fields, field.get record = field.get other := by
  intro field member
  have first := read field member
  have second := also field member
  cases known : entries.lookup field.name with
  | none =>
    rw [known] at first second
    exact Eq.trans first (Eq.symm second)
  | some value =>
    rw [known] at first second
    obtain ⟨inside, here⟩ := first
    obtain ⟨others, there⟩ := second
    exact (Prod.mk.inj (Option.some.inj (here.symm.trans there))).1

theorem kept_of_readEntries {Kept : σ → Prop}
    (kept : ∀ field ∈ fields, ∀ value record, Kept record → Kept (field.set value record))
    {entries : Toml.Table} {start record : σ} (first : Kept start) {trails : List Trail}
    (read : readEntries fields entries start = some (record, trails)) : Kept record := by
  induction entries generalizing start trails with
  | nil =>
    obtain ⟨rfl, -⟩ := Prod.mk.inj (Option.some.inj read)
    exact first
  | cons entry entries ih =>
    obtain ⟨key, value⟩ := entry
    cases found : fields.find? fun field => field.name = key with
    | none =>
      obtain ⟨_, rest, -⟩ := (readEntries_cons_of_none found ..).mp read
      exact ih first rest
    | some field =>
      obtain ⟨content, _, _, -, rest, -⟩ := (readEntries_cons_of_some found ..).mp read
      exact ih (kept field (name_of_find? found).1 content start first) rest

theorem Lawful.exists_readEntries_iff (lawful : Lawful fields) {entries : Toml.Table}
    (distinct : (entries.map Prod.fst).Nodup) {start record : σ}
    (ext : ∀ other trails, readEntries fields entries start = some (other, trails) →
      (∀ field ∈ fields, field.get other = field.get record) → other = record) :
    (∃ trails, readEntries fields entries start = some (record, trails)) ↔
      ReadFrom fields entries start record := by
  constructor
  · rintro ⟨trails, read⟩
    exact lawful.readFrom distinct read
  · intro from_
    have readable : ∀ entry ∈ entries, ∀ field ∈ fields, field.name = entry.1 →
        ∃ content, field.read entry.2 = some content := by
      intro entry member field known same
      have reads := from_ field known
      rw [same, lookup_of_mem distinct member] at reads
      obtain ⟨inside, here⟩ := reads
      exact ⟨_, here⟩
    obtain ⟨other, trails, read⟩ := exists_readEntries readable start
    have same := ext other trails read ((lawful.readFrom distinct read).get_eq from_)
    exact ⟨trails, same ▸ read⟩

variable {entries : Toml.Table} {start record : σ}

theorem readFields_cons_of_none {field : Field σ} (none : entries.lookup field.name = none) :
    readFields entries (field :: fields) start = readFields entries fields start := by
  rw [readFields, none]

theorem readFields_cons_of_some {field : Field σ} {value : Toml}
    (found : entries.lookup field.name = some value) :
    readFields entries (field :: fields) start = some record ↔
      ∃ content inside, field.read value = some (content, inside) ∧
        readFields entries fields (field.set content start) = some record := by
  simp only [readFields, found, bind, Option.bind_eq_some_iff, Prod.exists]

theorem readFields_nil (fields : List (Field σ)) : readFields [] fields record = some record := by
  induction fields with
  | nil => rfl
  | cons field fields ih => exact (readFields_cons_of_none rfl).trans ih

theorem Lawful.get_of_readFields {field : Field σ} (lawful : Lawful (field :: fields))
    (read : readFields entries fields start = some record) : field.get record = field.get start := by
  induction fields generalizing start with
  | nil =>
    obtain rfl := Option.some.inj read
    rfl
  | cons other fields ih =>
    have inner := lawful.sublist ((List.sublist_cons_self other fields).cons_cons field)
    cases stands : entries.lookup other.name with
    | none => exact ih inner ((readFields_cons_of_none stands).symm.trans read)
    | some value =>
      obtain ⟨content, _, -, rest⟩ := (readFields_cons_of_some stands).mp read
      have apart : field.name ≠ other.name :=
        List.ne_of_not_mem_cons (List.nodup_cons.mp lawful.names).1
      rw [ih inner rest, lawful.get_set_of_ne field (.head _) other (.tail _ (.head _)) apart]

theorem Lawful.readFrom_of_readFields (lawful : Lawful fields)
    (read : readFields entries fields start = some record) :
    ReadFrom fields entries start record := by
  induction fields generalizing start with
  | nil => nofun
  | cons field fields ih =>
    have inner := lawful.sublist (List.sublist_cons_self field fields)
    cases stands : entries.lookup field.name with
    | none =>
      have rest := (readFields_cons_of_none stands).symm.trans read
      refine List.forall_mem_cons.mpr ⟨?_, ih inner rest⟩
      rw [stands]
      exact lawful.get_of_readFields rest
    | some value =>
      obtain ⟨content, inside, here, rest⟩ := (readFields_cons_of_some stands).mp read
      refine List.forall_mem_cons.mpr ⟨?_, fun other member => ?_⟩
      · rw [stands]
        refine ⟨inside, ?_⟩
        rw [lawful.get_of_readFields rest, lawful.get_set field (.head _), here]
      · have apart : other.name ≠ field.name := fun same =>
          (List.nodup_cons.mp lawful.names).1 (same ▸ List.mem_map_of_mem member)
        exact lawful.reads_of_set (.tail _ member) (.head _) apart (ih inner rest other member)

theorem exists_readFields (readable : ∀ field ∈ fields, ∀ value,
      entries.lookup field.name = some value → ∃ content, field.read value = some content) (start : σ) :
    ∃ record, readFields entries fields start = some record := by
  induction fields generalizing start with
  | nil => exact ⟨start, rfl⟩
  | cons field fields ih =>
    obtain ⟨here, later⟩ := List.forall_mem_cons.mp readable
    cases stands : entries.lookup field.name with
    | none =>
      obtain ⟨record, rest⟩ := ih later start
      exact ⟨record, (readFields_cons_of_none stands).trans rest⟩
    | some value =>
      obtain ⟨⟨content, inside⟩, read⟩ := here value stands
      obtain ⟨record, rest⟩ := ih later (field.set content start)
      exact ⟨record, (readFields_cons_of_some stands).mpr ⟨content, inside, read, rest⟩⟩

/-- Lawful fields that make up the whole record. -/
structure Complete (fields : List (Field σ)) : Prop extends Lawful fields where
  ext : ∀ record other, (∀ field ∈ fields, field.get record = field.get other) → record = other

theorem Complete.readFields_iff (complete : Complete fields) :
    readFields entries fields start = some record ↔ ReadFrom fields entries start record := by
  refine ⟨complete.readFrom_of_readFields, fun from_ => ?_⟩
  have readable : ∀ field ∈ fields, ∀ value, entries.lookup field.name = some value →
      ∃ content, field.read value = some content := by
    intro field member value stands
    have reads := from_ field member
    rw [stands] at reads
    obtain ⟨inside, here⟩ := reads
    exact ⟨_, here⟩
  obtain ⟨other, read⟩ := exists_readFields readable start
  have same := complete.ext other record ((complete.readFrom_of_readFields read).get_eq from_)
  exact same ▸ read

end Lawful

end PageTree.Config
