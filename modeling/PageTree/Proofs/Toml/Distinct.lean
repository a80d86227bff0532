import Mathlib.Data.List.Nodup
import PageTree.Toml.Reader

/-!
A lookup finds nothing just when no entry has the key, and where no key comes twice it finds every entry
under its key. No table of a document has a key twice, at whatever depth. Each statement of a document
keeps this: a key is set only where it is missing, and a table is changed in its place.
-/

namespace PageTree

variable {α β : Type} [BEq α] [LawfulBEq α] {entries : List (α × β)}

theorem lookup_eq_none_iff_not_mem {key : α} :
    entries.lookup key = none ↔ key ∉ entries.map Prod.fst := by
  rw [List.lookup_eq_none_iff, List.mem_map, not_exists]
  simp only [bne_iff_ne, not_and]
  exact forall₂_congr fun _ _ => ne_comm

theorem lookup_of_mem (distinct : (entries.map Prod.fst).Nodup) {entry : α × β}
    (member : entry ∈ entries) : entries.lookup entry.1 = some entry.2 := by
  induction entries with
  | nil => cases member
  | cons first entries ih =>
    obtain ⟨fresh, others⟩ := List.nodup_cons.mp distinct
    rw [List.lookup_cons]
    rcases List.mem_cons.mp member with rfl | later
    · simp only [beq_self_eq_true]
    · have apart : (entry.1 == first.1) = false := by
        simpa using fun same => fresh (List.mem_map.mpr ⟨entry, later, same⟩)
      simpa only [apart] using ih others later

end PageTree

namespace PageTree.Toml

/-- The keys of all tables in a value are distinct. -/
inductive Distinct : Toml → Prop
  | text (value : String) : Distinct (.text value)
  | integer (value : Int) : Distinct (.integer value)
  | float (bits : UInt64) : Distinct (.float bits)
  | boolean (value : Bool) : Distinct (.boolean value)
  | moment (value : Moment) : Distinct (.moment value)
  | array {items : List Toml} (each : ∀ item ∈ items, Distinct item) : Distinct (.array items)
  | table {entries : Table} (keys : (entries.map Prod.fst).Nodup)
      (each : ∀ entry ∈ entries, Distinct entry.2) : Distinct (.table entries)

theorem Distinct.keys {table : Table} (distinct : Distinct (.table table)) :
    (table.map Prod.fst).Nodup := by
  cases distinct with
  | table keys _ => exact keys

theorem Distinct.of_mem {table : Table} (distinct : Distinct (.table table)) {entry : String × Toml}
    (member : entry ∈ table) : entry.2.Distinct := by
  cases distinct with
  | table _ each => exact each entry member

inductive Entry.Distinct : Entry → Prop
  | value {value : Toml} (inner : value.Distinct) : Entry.Distinct (.value value)
  | table {entries : Entries} (origin : Origin) (keys : (entries.map Prod.fst).Nodup)
      (each : ∀ entry ∈ entries, Entry.Distinct entry.2) : Entry.Distinct (.table origin entries)
  | tables {elements : List Entries} (keys : ∀ entries ∈ elements, (entries.map Prod.fst).Nodup)
      (each : ∀ entries ∈ elements, ∀ entry ∈ entries, Entry.Distinct entry.2) :
      Entry.Distinct (.tables elements)

structure Entries.Distinct (entries : Entries) : Prop where
  keys : (entries.map Prod.fst).Nodup
  each : ∀ entry ∈ entries, entry.2.Distinct

theorem Entry.distinct_table_iff {origin : Origin} {entries : Entries} :
    (Entry.table origin entries).Distinct ↔ entries.Distinct := by
  refine ⟨fun distinct => ?_, fun distinct => .table origin distinct.keys distinct.each⟩
  cases distinct with
  | table _ keys each => exact ⟨keys, each⟩

theorem Entry.distinct_tables_iff {elements : List Entries} :
    (Entry.tables elements).Distinct ↔ ∀ entries ∈ elements, entries.Distinct := by
  refine ⟨fun distinct => ?_, fun distinct =>
    .tables (fun entries member => (distinct entries member).keys)
      fun entries member => (distinct entries member).each⟩
  cases distinct with
  | tables keys each => exact fun entries member => ⟨keys entries member, each entries member⟩

theorem Entry.distinct_tables_append {front : List Entries} {last : Entries}
    (before : ∀ entries ∈ front, entries.Distinct) (inner : last.Distinct) :
    (Entry.tables (front ++ [last])).Distinct := by
  refine distinct_tables_iff.mpr fun entries member => ?_
  rcases List.mem_append.mp member with old | new
  · exact before entries old
  · rwa [List.mem_singleton.mp new]

theorem entriesToToml_eq_map (entries : Entries) :
    entriesToToml entries = entries.map fun entry => (entry.1, entry.2.toToml) := by
  induction entries with
  | nil => rfl
  | cons entry entries ih => rw [entriesToToml, List.map_cons, ih]

theorem elementsToToml_eq_map (elements : List Entries) :
    elementsToToml elements = elements.map fun entries => .table (entriesToToml entries) := by
  induction elements with
  | nil => rfl
  | cons entries elements ih => rw [elementsToToml, List.map_cons, ih]

theorem keys_entriesToToml (entries : Entries) :
    (entriesToToml entries).map Prod.fst = entries.map Prod.fst := by
  rw [entriesToToml_eq_map, List.map_map]
  rfl

theorem distinct_entriesToToml {entries : Entries} (keys : (entries.map Prod.fst).Nodup)
    (each : ∀ entry ∈ entries, entry.2.toToml.Distinct) :
    Distinct (.table (entriesToToml entries)) := by
  refine .table (by rwa [keys_entriesToToml]) ?_
  rw [entriesToToml_eq_map]
  intro entry member
  obtain ⟨inner, known, rfl⟩ := List.mem_map.mp member
  exact each inner known

theorem Entry.Distinct.toToml {entry : Entry} (distinct : entry.Distinct) :
    entry.toToml.Distinct := by
  induction distinct with
  | value inner => exact inner
  | table _ keys _ ih => exact distinct_entriesToToml keys ih
  | tables keys _ ih =>
    rw [Entry.toToml, elementsToToml_eq_map]
    refine .array fun item member => ?_
    obtain ⟨entries, known, rfl⟩ := List.mem_map.mp member
    exact distinct_entriesToToml (keys entries known) (ih entries known)

theorem Entries.Distinct.toToml {entries : Entries} (distinct : entries.Distinct) :
    Toml.Distinct (.table (entriesToToml entries)) :=
  distinct_entriesToToml distinct.keys fun entry member => (distinct.each entry member).toToml

namespace Entries

theorem distinct_nil : Distinct [] := ⟨List.nodup_nil, by simp⟩

theorem Distinct.of_lookup {entries : Entries} (distinct : entries.Distinct) {key : String}
    {entry : Entry} (known : entries.lookup key = some entry) : entry.Distinct := by
  obtain ⟨front, back, rfl, -⟩ := List.lookup_eq_some_iff.mp known
  exact distinct.each (key, entry) (by simp)

theorem Distinct.add {entries : Entries} (distinct : entries.Distinct) {key : String} {entry : Entry}
    (absent : key ∉ entries.map Prod.fst) (inner : entry.Distinct) :
    Distinct (entries ++ [(key, entry)]) := by
  refine ⟨?_, ?_⟩
  · rw [List.map_append, List.nodup_append']
    exact ⟨distinct.keys, List.nodup_singleton key, by simpa using absent⟩
  · intro other member
    rcases List.mem_append.mp member with old | new
    · exact distinct.each other old
    · rw [List.mem_singleton.mp new]
      exact inner

theorem Distinct.replace {entries : Entries} (distinct : entries.Distinct) (key : String)
    {entry : Entry} (inner : entry.Distinct) : (entries.replace key entry).Distinct := by
  have keys : (entries.replace key entry).map Prod.fst = entries.map Prod.fst := by
    rw [Entries.replace, List.map_map]
    apply List.map_congr_left
    intro other _
    simp only [Function.comp_apply]
    split <;> rfl
  refine ⟨by rw [keys]; exact distinct.keys, fun other member => ?_⟩
  obtain ⟨⟨name, old⟩, known, rfl⟩ := List.mem_map.mp member
  by_cases same : name = key
  · simpa only [if_pos same] using inner
  · simpa only [if_neg same] using distinct.each _ known

theorem Distinct.remove {entries : Entries} (distinct : entries.Distinct) (key : String) :
    (entries.remove key).Distinct := by
  have sublist : (entries.remove key).Sublist entries := List.filter_sublist
  exact ⟨distinct.keys.sublist (sublist.map _), fun other member =>
    distinct.each other (sublist.subset member)⟩

theorem not_mem_remove (entries : Entries) (key : String) :
    key ∉ (entries.remove key).map Prod.fst := by
  intro member
  obtain ⟨entry, kept, same⟩ := List.mem_map.mp member
  simpa [same] using (List.mem_filter.mp kept).2

/-- A change at the end of a path keeps the keys distinct if it does so there. The induction is on the
path. -/
theorem Distinct.update {made : Origin} {change : Origin → Entries → Option Entries}
    (kept : ∀ {origin : Origin} {entries result : Entries}, change origin entries = some result →
      entries.Distinct → result.Distinct) {path : List String} {origin : Origin}
    {entries result : Entries} (distinct : entries.Distinct)
    (done : Entries.update made change path origin entries = some result) : result.Distinct := by
  induction path generalizing origin entries result with
  | nil => exact kept done distinct
  | cons key path ih =>
    rw [Entries.update] at done
    cases known : entries.lookup key with
    | none =>
      simp only [known, bind, pure, Option.bind_eq_some_iff, Option.some.injEq] at done
      obtain ⟨inner, changed, rfl⟩ := done
      exact distinct.add (lookup_eq_none_iff_not_mem.mp known)
        (Entry.distinct_table_iff.mpr (ih distinct_nil changed))
    | some entry =>
      have here := distinct.of_lookup known
      cases entry with
      | value _ => simp [known] at done
      | table old inner =>
        simp only [known] at done
        split at done
        · cases done
        · simp only [bind, pure, Option.bind_eq_some_iff, Option.some.injEq] at done
          obtain ⟨below, changed, rfl⟩ := done
          have start := Entry.distinct_table_iff.mp here
          exact distinct.replace key (Entry.distinct_table_iff.mpr (ih start changed))
      | tables elements =>
        simp only [known, bind, pure, Option.bind_eq_some_iff, Option.some.injEq] at done
        obtain ⟨below, changed, rfl⟩ := done
        have each := Entry.distinct_tables_iff.mp here
        have last : Distinct (elements.getLast?.getD []) := by
          cases final : elements.getLast? with
          | none => exact distinct_nil
          | some entries => exact each entries (List.mem_of_getLast? final)
        exact distinct.replace key (Entry.distinct_tables_append
          (fun entries member => each entries (List.dropLast_subset _ member)) (ih last changed))

theorem Distinct.assign {entries result : Entries} (distinct : entries.Distinct)
    {path : List String} {key : String} {value : Toml} (inner : value.Distinct)
    (done : entries.assign path key value = some result) : result.Distinct := by
  refine distinct.update ?_ done
  intro origin entries result changed distinct
  split at changed
  · cases changed
  · split at changed
    · cases changed
    · next missing =>
      obtain rfl := Option.some.inj changed
      have none : entries.lookup key = none := Option.not_isSome_iff_eq_none.mp missing
      exact distinct.add (lookup_eq_none_iff_not_mem.mp none) (.value inner)

end Entries

theorem foldlM_keeps {step : σ → α → Option σ} {Kept : σ → Prop} {items : List α}
    (kept : ∀ item ∈ items, ∀ state result, Kept state → step state item = some result → Kept result)
    {start result : σ} (first : Kept start) (done : items.foldlM step start = some result) :
    Kept result := by
  induction items generalizing start with
  | nil =>
    obtain rfl := Option.some.inj done
    exact first
  | cons item items ih =>
    obtain ⟨here, later⟩ := List.forall_mem_cons.mp kept
    rw [List.foldlM_cons] at done
    obtain ⟨next, stepped, rest⟩ := Option.bind_eq_some_iff.mp done
    exact ih later (here start next first stepped) rest

def DistinctValues (assignments : List Assignment) : Prop := ∀ a ∈ assignments, a.value.Distinct

theorem Entries.Distinct.assignAll {entries result : Entries} (distinct : entries.Distinct)
    {assignments : List Assignment} (values : DistinctValues assignments)
    (done : entries.assignAll assignments = some result) : result.Distinct :=
  foldlM_keeps (fun a member _ _ kept assigned => kept.assign (values a member) assigned) distinct done

theorem Entries.Distinct.fill {entries start result : Entries} (distinct : entries.Distinct)
    (first : start.Distinct) {assignments : List Assignment} (values : DistinctValues assignments)
    {key : String}
    (done : (start.assignAll assignments).bind (fun inner =>
      some (entries.remove key ++ [(key, .table .header inner)])) = some result) :
    result.Distinct := by
  obtain ⟨inner, filled, same⟩ := Option.bind_eq_some_iff.mp done
  obtain rfl := Option.some.inj same
  have below := first.assignAll values filled
  exact (distinct.remove key).add (not_mem_remove entries key) (Entry.distinct_table_iff.mpr below)

theorem Entries.Distinct.addSection {entries result : Entries} (distinct : entries.Distinct)
    {s : Section} (values : DistinctValues s.assignments) (done : entries.addSection s = some result) :
    result.Distinct := by
  rw [Entries.addSection] at done
  cases named : s.header with
  | table path key =>
    simp only [named] at done
    refine distinct.update ?_ done
    intro origin entries result changed distinct
    split at changed
    · exact distinct.fill distinct_nil values changed
    · next known =>
      have first := Entry.distinct_table_iff.mp (distinct.of_lookup known)
      exact distinct.fill first values changed
    · cases changed
  | element path key =>
    simp only [named] at done
    refine distinct.update ?_ done
    intro origin entries result changed distinct
    obtain ⟨inner, filled, changed⟩ := Option.bind_eq_some_iff.mp changed
    have below := distinct_nil.assignAll values filled
    split at changed
    · next missing =>
      obtain rfl := Option.some.inj changed
      have single := Entry.distinct_tables_append (List.forall_mem_nil _) below
      exact distinct.add (lookup_eq_none_iff_not_mem.mp missing) single
    · next known =>
      obtain rfl := Option.some.inj changed
      have each := Entry.distinct_tables_iff.mp (distinct.of_lookup known)
      exact distinct.replace key (Entry.distinct_tables_append each below)
    · cases changed

/-- A value that is read has distinct keys. -/
def Sound (read : Option (Toml × List Char)) : Prop :=
  ∀ found, read = some found → found.1.Distinct

theorem sound_none : Sound none := nofun

theorem sound_some {value : Toml} {rest : List Char} (distinct : value.Distinct) :
    Sound (some (value, rest)) := by
  intro _ same
  cases same
  exact distinct

theorem Sound.bind {first : Option α} {next : α → Option (Toml × List Char)}
    (each : ∀ found, Sound (next found)) : Sound (first >>= next) := by
  intro result read
  obtain ⟨found, _, read⟩ := Option.bind_eq_some_iff.mp read
  exact each found result read

theorem Sound.map {first : Option α} {value : α → Toml × List Char}
    (each : ∀ found, (value found).1.Distinct) : Sound (first.map value) := by
  intro _ read
  obtain ⟨found, _, same⟩ := Option.map_eq_some_iff.mp read
  exact same ▸ each found

theorem Sound.or {first second : Option (Toml × List Char)} (here : Sound first)
    (later : Sound second) : Sound (first.or second) := by
  intro found read
  rcases Option.or_eq_some_iff.mp read with read | ⟨-, read⟩
  · exact here found read
  · exact later found read

theorem Sound.ite {c : Prop} [Decidable c] {first second : Option (Toml × List Char)}
    (here : Sound first) (there : Sound second) : Sound (if c then first else second) := by
  split
  · exact here
  · exact there

theorem sound_moment (cs : List Char) : Sound (moment? cs) := by
  unfold moment?
  split
  · dsimp only
    split
    · exact sound_some (.moment _)
    · split <;> exact sound_some (.moment _)
  · exact .map fun _ => .moment _

theorem sound_fractional (cs : List Char) : Sound (fractional? cs) := by
  unfold fractional?
  dsimp only
  refine .bind fun _ => ?_
  split <;> exact .bind fun _ => .ite sound_none (.ite sound_none (sound_some (.float _)))

theorem sound_special (cs : List Char) : Sound (special? cs) := by
  unfold special?
  dsimp only
  split
  · exact sound_some (.float _)
  · exact sound_some (.float _)
  · exact sound_none

theorem distinct_of_bounded {n : Int} {value : Toml} (read : boundedInteger? n = some value) :
    value.Distinct := by
  rw [boundedInteger?] at read
  split at read
  · cases read
    exact .integer _
  · cases read

theorem sound_bounded (n : Int) (rest : List Char) :
    Sound (boundedInteger? n >>= fun value => some (value, rest)) := by
  intro _ read
  obtain ⟨value, bounded, same⟩ := Option.bind_eq_some_iff.mp read
  cases same
  exact distinct_of_bounded bounded

theorem sound_based (base : Nat) (isDigit : Char → Bool) (cs : List Char) :
    Sound (based? base isDigit cs) :=
  .bind fun _ => sound_bounded _ _

theorem sound_integer (cs : List Char) : Sound (integer? cs) := by
  unfold integer?
  split
  · exact sound_based _ _ _
  · exact sound_based _ _ _
  · exact sound_based _ _ _
  · exact .bind fun _ => sound_bounded _ _

theorem sound_scalar (cs : List Char) : Sound (scalar? cs) := by
  unfold scalar?
  split
  · exact sound_some (.boolean _)
  · exact sound_some (.boolean _)
  · exact .map fun _ => .text _
  · exact .map fun _ => .text _
  · exact (sound_moment _).or ((sound_fractional _).or ((sound_special _).or (sound_integer _)))

def ItemsSound (read : Option (List Toml × List Char)) : Prop :=
  ∀ found, read = some found → ∀ item ∈ found.1, item.Distinct

def AssignmentsSound (read : Option (List Assignment × List Char)) : Prop :=
  ∀ found, read = some found → DistinctValues found.1

section Steps

variable {steps : Nat}

theorem sound_readValue (ofItems : ∀ depth cs, ItemsSound (readItems steps depth cs))
    (ofAssignments : ∀ depth cs, AssignmentsSound (readAssignments steps depth cs))
    (depth : Nat) (cs : List Char) : Sound (readValue (steps + 1) depth cs) := by
  intro found read
  unfold readValue at read
  split at read
  · split at read
    · cases read
    · obtain ⟨⟨items, _⟩, inside, same⟩ := Option.map_eq_some_iff.mp read
      cases same
      exact .array (ofItems _ _ _ inside)
  · split at read
    · cases read
    · split at read
      · cases read
        exact .table List.nodup_nil (by simp)
      · simp only [bind, pure, Option.bind_eq_some_iff, Option.some.injEq] at read
        obtain ⟨⟨assignments, _⟩, inside, entries, made, same⟩ := read
        cases same
        have values := ofAssignments _ _ _ inside
        exact (Entries.distinct_nil.assignAll values made).toToml
  · exact sound_scalar cs _ read

theorem sound_readItems (ofValue : ∀ depth cs, Sound (readValue steps depth cs))
    (ofItems : ∀ depth cs, ItemsSound (readItems steps depth cs)) (depth : Nat) (cs : List Char) :
    ItemsSound (readItems (steps + 1) depth cs) := by
  intro found read
  unfold readItems at read
  split at read
  · cases read
    exact List.forall_mem_nil _
  · obtain ⟨⟨item, _⟩, first, read⟩ := Option.bind_eq_some_iff.mp read
    have here := ofValue _ _ _ first
    dsimp only at read
    split at read
    · obtain ⟨⟨others, _⟩, later, same⟩ := Option.map_eq_some_iff.mp read
      cases same
      exact List.forall_mem_cons.mpr ⟨here, ofItems _ _ _ later⟩
    · cases read
      exact List.forall_mem_singleton.mpr here
    · cases read

theorem sound_readAssignments (ofValue : ∀ depth cs, Sound (readValue steps depth cs))
    (ofAssignments : ∀ depth cs, AssignmentsSound (readAssignments steps depth cs)) (depth : Nat)
    (cs : List Char) : AssignmentsSound (readAssignments (steps + 1) depth cs) := by
  intro found read
  unfold readAssignments at read
  simp only [bind, Option.bind_eq_some_iff] at read
  obtain ⟨_, _, _, _, ⟨value, _⟩, inside, read⟩ := read
  have here := ofValue _ _ _ inside
  split at read
  · obtain ⟨⟨others, _⟩, later, same⟩ := Option.map_eq_some_iff.mp read
    cases same
    exact List.forall_mem_cons.mpr ⟨here, ofAssignments _ _ _ later⟩
  · cases read
    exact List.forall_mem_singleton.mpr here
  · cases read

end Steps

theorem sound_read (steps : Nat) : (∀ depth cs, Sound (readValue steps depth cs)) ∧
    (∀ depth cs, ItemsSound (readItems steps depth cs)) ∧
    ∀ depth cs, AssignmentsSound (readAssignments steps depth cs) := by
  induction steps with
  | zero => exact ⟨nofun, nofun, nofun⟩
  | succ steps ih =>
    obtain ⟨ofValue, ofItems, ofAssignments⟩ := ih
    exact ⟨sound_readValue ofItems ofAssignments, sound_readItems ofValue ofItems,
      sound_readAssignments ofValue ofAssignments⟩

def Statement.Distinct : Statement → Prop
  | .header _ => True
  | .assignment a => a.value.Distinct

theorem distinct_of_readStatement {cs rest : List Char} {statement : Statement}
    (read : readStatement cs = some (statement, rest)) : statement.Distinct := by
  unfold readStatement at read
  split at read <;> simp only [bind, pure, Option.bind_eq_some_iff, Option.some.injEq] at read
  · obtain ⟨_, _, _, _, _, _, _, _, same⟩ := read
    cases same
    trivial
  · obtain ⟨_, _, _, _, _, _, same⟩ := read
    cases same
    trivial
  · obtain ⟨_, _, _, _, ⟨value, _⟩, inside, _, _, same⟩ := read
    cases same
    exact (sound_read _).1 _ _ _ inside

theorem distinct_of_readStatements {steps : Nat} {cs : List Char} {statements : List Statement}
    (read : readStatements steps cs = some statements) :
    ∀ statement ∈ statements, statement.Distinct := by
  induction steps generalizing cs statements with
  | zero => cases read
  | succ steps ih =>
    rw [readStatements] at read
    split at read
    · cases read
      simp
    · simp only [bind, pure, Option.bind_eq_some_iff, Option.some.injEq] at read
      obtain ⟨⟨statement, _⟩, first, others, later, rfl⟩ := read
      exact List.forall_mem_cons.mpr ⟨distinct_of_readStatement first, ih later⟩

structure Document.DistinctParts (document : Document) : Prop where
  top : DistinctValues document.top
  sections : ∀ s ∈ document.sections, DistinctValues s.assignments

theorem Document.distinctParts_ofStatements {statements : List Statement}
    (distinct : ∀ statement ∈ statements, statement.Distinct) :
    (ofStatements statements).DistinctParts := by
  induction statements with
  | nil => exact ⟨by simp [ofStatements, DistinctValues], by simp [ofStatements]⟩
  | cons statement statements ih =>
    obtain ⟨here, later⟩ := List.forall_mem_cons.mp distinct
    have known := ih later
    cases statement with
    | assignment a => exact ⟨List.forall_mem_cons.mpr ⟨here, known.top⟩, known.sections⟩
    | header header =>
      exact ⟨by simp [ofStatements, addFirst, DistinctValues],
        List.forall_mem_cons.mpr ⟨known.top, known.sections⟩⟩

theorem Document.DistinctParts.table {document : Document} (parts : document.DistinctParts)
    {table : Table} (made : document.table? = some table) : Distinct (.table table) := by
  simp only [table?, bind, pure, Option.bind_eq_some_iff, Option.some.injEq] at made
  obtain ⟨start, top, entries, added, rfl⟩ := made
  have first := Entries.distinct_nil.assignAll parts.top top
  have last : entries.Distinct := foldlM_keeps
    (fun s member _ _ kept => kept.addSection (parts.sections s member)) first added
  exact last.toToml

theorem distinct_parse {text : String} {table : Table} (parsed : parse? text = some table) :
    Distinct (.table table) := by
  obtain ⟨statements, read, made⟩ := Option.bind_eq_some_iff.mp parsed
  exact (Document.distinctParts_ofStatements (distinct_of_readStatements read)).table made

end PageTree.Toml
