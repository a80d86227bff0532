import PageTree.Proofs.Site.Records
import PageTree.Proofs.Toml.Distinct

/-!
The report of a configuration beside its plain reading. Both read the same; the report has one trail
for each outermost name that the schema does not have, and what stands under these names changes
nothing. A field whose key is missing has its default, whatever the other keys hold.
-/

namespace PageTree.Config

def pageKeys : List String := ["id", "self", "docs", "parents"]

def siteKeys : List String := ["content", "index", "pages", "nav", "global"]

def passKeys : List String := ["heading", "link", "entity"]

/-- The sections, each with its own keys. -/
def schema : List (String × List String) :=
  [("page", pageKeys), ("site", siteKeys), ("passes", passKeys)]

/-- What stands in a section; one that is missing is empty. -/
def contents? (table : Toml.Table) (name : String) (keys : List String) : Option Toml.Table :=
  match table.lookup name with
  | some value => sectionEntries? keys value
  | none => some []

/-- The trail of a name outside the schema, at the top or in a section. -/
inductive Outside (table : Toml.Table) : Trail → Prop
  | top {name : String} (stands : name ∈ table.map Prod.fst)
      (unknown : name ∉ schema.map Prod.fst) : Outside table [name]
  | inner {name : String} {keys : List String} (known : (name, keys) ∈ schema)
      {entries : Toml.Table} (inside : contents? table name keys = some entries) {key : String}
      (stands : key ∈ entries.map Prod.fst) (unknown : key ∉ keys) : Outside table [name, key]

/-- Every field is what the value under its key reads as; without a value it has its default. -/
structure Described (table : Toml.Table) (config : Config) : Prop where
  file : config.file = none
  root : config.root = []
  page : ∃ entries, contents? table "page" pageKeys = some entries ∧
    ReadFrom pageFields entries {} config.page
  site : ∃ entries, contents? table "site" siteKeys = some entries ∧
    ReadFrom siteFields entries {} config.site
  passes : ∃ entries, contents? table "passes" passKeys = some entries ∧
    ReadFrom passFields entries {} config.passes

def schemaValues? (table : Toml.Table) (name : String) (keys : List String) :
    Option (List (Option Toml)) :=
  (contents? table name keys).map fun entries => keys.map fun key => entries.lookup key

/-- Two documents have the same values under the keys of the schema. -/
def Agree (table other : Toml.Table) : Prop :=
  ∀ s ∈ schema, schemaValues? table s.1 s.2 = schemaValues? other s.1 s.2

theorem complete_sections : Complete pageFields ∧ Complete siteFields ∧ Complete passFields := by
  refine ⟨?_, ?_, ?_⟩
  all_goals
    refine ⟨⟨by decide, ?_, ?_⟩, ?_⟩
    · simp [pageFields, siteFields, passFields, Field.whole]
    · simp [pageFields, siteFields, passFields, Field.whole]
    · rintro ⟨⟩ ⟨⟩ same
      simpa [pageFields, siteFields, passFields, Field.whole] using same

theorem lawful_fields : Lawful fields where
  names := by decide
  get_set := by simp [fields, Field.ofSection]
  get_set_of_ne := by simp [fields, Field.ofSection]

def Unset (config : Config) : Prop := config.file = none ∧ config.root = []

theorem unset_of_readEntries {entries : Toml.Table} {config : Config} {trails : List Trail}
    (read : readEntries fields entries {} = some (config, trails)) : Unset config :=
  kept_of_readEntries (by simp +contextual [fields, Field.ofSection, Unset]) ⟨rfl, rfl⟩ read

theorem Unset.eq {config other : Config} (unset : Unset config) (also : Unset other)
    (same : ∀ field ∈ fields, field.get config = field.get other) : config = other := by
  obtain ⟨_, _, _, _, _⟩ := config
  obtain ⟨_, _, _, _, _⟩ := other
  obtain ⟨rfl, rfl⟩ := unset
  obtain ⟨rfl, rfl⟩ := also
  simpa [fields, Field.ofSection] using same

variable {entries table : Toml.Table}

theorem fst_zip_sublist (keys : List String) (items : List Toml) :
    ((keys.zip items).map Prod.fst).Sublist keys := by
  induction keys generalizing items with
  | nil => exact List.nil_sublist _
  | cons key keys ih =>
    cases items with
    | nil => exact List.nil_sublist _
    | cons item items => exact (ih items).cons_cons key

theorem distinct_sectionEntries {keys : List String} (own : keys.Nodup) {value : Toml}
    (distinct : value.Distinct) (known : sectionEntries? keys value = some entries) :
    (entries.map Prod.fst).Nodup := by
  cases distinct with
  | table keys _ =>
    obtain rfl := Option.some.inj known
    exact keys
  | @array items _ =>
    obtain rfl := Option.some.inj known
    exact own.sublist (fst_zip_sublist keys items)
  | moment moment =>
    obtain rfl := Option.some.inj known
    exact List.nodup_singleton _
  | text _ => cases known
  | integer _ => cases known
  | float _ => cases known
  | boolean _ => cases known

theorem distinct_of_lookup (distinct : (Toml.table table).Distinct) {name : String} {value : Toml}
    (known : table.lookup name = some value) : value.Distinct := by
  obtain ⟨front, back, rfl, -⟩ := List.lookup_eq_some_iff.mp known
  have member : (name, value) ∈ front ++ (name, value) :: back := by simp
  exact distinct.of_mem member

theorem readSection_eq_some_iff {fields : List (Field σ)} (complete : Complete fields) {name : String}
    {start record : σ} :
    readSection table name fields start = some record ↔
      ∃ entries, contents? table name (fields.map Field.name) = some entries ∧
        ReadFrom fields entries start record := by
  rw [readSection, contents?]
  cases table.lookup name with
  | none => simp only [← complete.readFields_iff, Option.some.injEq, exists_eq_left', readFields_nil]
  | some value => simp only [bind, Option.bind_eq_some_iff, complete.readFields_iff]

theorem ofSection_reads_iff {inner : List (Field α)} (complete : Complete inner)
    (distinct : (Toml.table table).Distinct) {name : String} {first : α} {get : σ → α}
    {set : α → σ → σ} {start record : σ} (begins : get start = first) :
    (Field.ofSection name inner first get set).Reads start record (table.lookup name) ↔
      ∃ entries, contents? table name (inner.map Field.name) = some entries ∧
        ReadFrom inner entries first (get record) := by
  rw [contents?]
  cases stands : table.lookup name with
  | none =>
    simp only [← complete.readFields_iff, Option.some.injEq, exists_eq_left', readFields_nil, ← begins]
    exact eq_comm
  | some value =>
    change (∃ inside, (sectionEntries? (inner.map Field.name) value).bind
      (fun entries => readEntries inner entries first) = some (get record, inside)) ↔ _
    simp only [Option.bind_eq_some_iff]
    rw [exists_comm]
    refine exists_congr fun entries => ?_
    rw [exists_and_left]
    refine and_congr_right fun known => ?_
    have own := distinct_sectionEntries complete.names (distinct_of_lookup distinct stands) known
    exact complete.exists_readEntries_iff own fun other _ _ => complete.ext other (get record)

theorem ofTable?_iff_described {config : Config} :
    ofTable? table = some config ↔ Described table config := by
  obtain ⟨page, site, passes⟩ := complete_sections
  simp only [ofTable?, bind, pure, Option.bind_eq_some_iff, Option.some.injEq,
    readSection_eq_some_iff page, readSection_eq_some_iff site, readSection_eq_some_iff passes]
  constructor
  · rintro ⟨page, readPage, site, readSite, passes, readPasses, rfl⟩
    exact ⟨rfl, rfl, readPage, readSite, readPasses⟩
  · obtain ⟨file, root, page, site, passes⟩ := config
    rintro ⟨rfl, rfl, readPage, readSite, readPasses⟩
    exact ⟨page, readPage, site, readSite, passes, readPasses, rfl⟩

theorem described_iff (distinct : (Toml.table table).Distinct) {config : Config} :
    Described table config ↔ Unset config ∧ ReadFrom fields table {} config := by
  obtain ⟨completePage, completeSite, completePasses⟩ := complete_sections
  rw [ReadFrom, fields, List.forall_mem_cons, List.forall_mem_cons, List.forall_mem_singleton]
  constructor
  · rintro ⟨file, root, page, site, passes⟩
    exact ⟨⟨file, root⟩, (ofSection_reads_iff completePage distinct rfl).mpr page,
      (ofSection_reads_iff completeSite distinct rfl).mpr site,
      (ofSection_reads_iff completePasses distinct rfl).mpr passes⟩
  · rintro ⟨⟨file, root⟩, page, site, passes⟩
    exact ⟨file, root, (ofSection_reads_iff completePage distinct rfl).mp page,
      (ofSection_reads_iff completeSite distinct rfl).mp site,
      (ofSection_reads_iff completePasses distinct rfl).mp passes⟩

theorem exists_readEntries_fields_iff (distinct : (Toml.table table).Distinct) {config : Config} :
    (∃ trails, readEntries fields table {} = some (config, trails)) ↔ Described table config := by
  rw [described_iff distinct]
  constructor
  · rintro ⟨trails, read⟩
    exact ⟨unset_of_readEntries read, lawful_fields.readFrom distinct.keys read⟩
  · rintro ⟨unset, from_⟩
    refine (lawful_fields.exists_readEntries_iff distinct.keys fun other _ read same => ?_).mpr from_
    exact (unset_of_readEntries read).eq unset same

theorem map_readEntries_fields (distinct : (Toml.table table).Distinct) :
    (readEntries fields table {}).map Prod.fst = ofTable? table := by
  ext config
  rw [ofTable?_iff_described, ← exists_readEntries_fields_iff distinct, Option.map_eq_some_iff]
  constructor
  · rintro ⟨⟨_, trails⟩, read, rfl⟩
    exact ⟨trails, read⟩
  · rintro ⟨trails, read⟩
    exact ⟨_, read, rfl⟩

theorem parse?_eq_some_iff {text : String} {config : Config} {left : List String} :
    parse? text = some (config, left) ↔ ∃ table trails, Toml.parse? text = some table ∧
      readEntries fields table {} = some (config, trails) ∧ left = trails.map dotted := by
  simp only [parse?, bind, pure, Option.bind_eq_some_iff, Option.some.injEq, Prod.exists,
    Prod.mk.injEq]
  constructor
  · rintro ⟨table, parsed, _, trails, read, rfl, rfl⟩
    exact ⟨table, trails, parsed, read, rfl⟩
  · rintro ⟨table, trails, parsed, read, rfl⟩
    exact ⟨table, parsed, config, trails, read, rfl, rfl⟩

theorem ofText?_eq (text : String) : ofText? text = (parse? text).map Prod.fst := by
  ext config
  simp only [ofText?, Option.bind_eq_some_iff, Option.map_eq_some_iff, Prod.exists, exists_and_right,
    exists_eq_right, parse?_eq_some_iff]
  constructor
  · rintro ⟨table, parsed, read⟩
    rw [← map_readEntries_fields (Toml.distinct_parse parsed)] at read
    obtain ⟨⟨_, trails⟩, found, rfl⟩ := Option.map_eq_some_iff.mp read
    exact ⟨_, table, trails, parsed, found, rfl⟩
  · rintro ⟨_, table, trails, parsed, read, rfl⟩
    refine ⟨table, parsed, ?_⟩
    rw [← map_readEntries_fields (Toml.distinct_parse parsed), read]
    rfl

theorem ReadFrom.of_lookup {fields : List (Field σ)} {other : Toml.Table} {start record : σ}
    (read : ReadFrom fields entries start record)
    (same : ∀ key ∈ fields.map Field.name, entries.lookup key = other.lookup key) :
    ReadFrom fields other start record := by
  intro field member
  rw [← same field.name (List.mem_map_of_mem member)]
  exact read field member

theorem exists_contents_of_schemaValues (fields : List (Field σ)) {other : Toml.Table}
    {name : String} {start record : σ}
    (same : schemaValues? table name (fields.map Field.name) =
      schemaValues? other name (fields.map Field.name))
    (read : ∃ entries, contents? table name (fields.map Field.name) = some entries ∧
      ReadFrom fields entries start record) :
    ∃ entries, contents? other name (fields.map Field.name) = some entries ∧
      ReadFrom fields entries start record := by
  obtain ⟨entries, stands, read⟩ := read
  rw [schemaValues?, schemaValues?, stands, Option.map_some, eq_comm, Option.map_eq_some_iff] at same
  obtain ⟨others, known, values⟩ := same
  exact ⟨others, known, read.of_lookup fun key member => (List.map_inj_left.mp values key member).symm⟩

theorem Agree.symm {other : Toml.Table} (agree : Agree table other) : Agree other table :=
  fun s member => Eq.symm (agree s member)

theorem Described.of_agree {other : Toml.Table} (agree : Agree table other) {config : Config}
    (described : Described table config) : Described other config where
  file := described.file
  root := described.root
  page :=
    exists_contents_of_schemaValues pageFields (agree ("page", pageKeys) (by decide)) described.page
  site :=
    exists_contents_of_schemaValues siteFields (agree ("site", siteKeys) (by decide)) described.site
  passes :=
    exists_contents_of_schemaValues passFields (agree ("passes", passKeys) (by decide)) described.passes

theorem ofTable?_eq_of_agree {other : Toml.Table} (agree : Agree table other) :
    ofTable? table = ofTable? other := by
  ext config
  rw [ofTable?_iff_described, ofTable?_iff_described]
  exact ⟨.of_agree agree, .of_agree agree.symm⟩

def unknownKeys (keys : List String) (entries : Toml.Table) : List Trail :=
  ((entries.map Prod.fst).filter fun key => key ∉ keys).map fun key => [key]

def Field.Closed (field : Field σ) : Prop :=
  ∀ value content inside, field.read value = some (content, inside) → inside = []

theorem closed_whole {name : String} {read : Toml → Option α} {get : σ → α} {set : α → σ → σ} :
    (Field.whole name read get set).Closed := by
  intro value content inside found
  obtain ⟨_, _, same⟩ := Option.map_eq_some_iff.mp found
  exact (Prod.mk.inj same).2.symm

theorem left_of_closed {fields : List (Field σ)} (closed : ∀ field ∈ fields, field.Closed)
    {start record : σ} {trails : List Trail}
    (read : readEntries fields entries start = some (record, trails)) :
    trails = unknownKeys (fields.map Field.name) entries := by
  induction entries generalizing start trails with
  | nil =>
    obtain ⟨-, rfl⟩ := Prod.mk.inj (Option.some.inj read)
    rfl
  | cons entry entries ih =>
    obtain ⟨key, value⟩ := entry
    cases found : fields.find? fun field => field.name = key with
    | none =>
      obtain ⟨others, rest, rfl⟩ := (readEntries_cons_of_none found ..).mp read
      have unknown : key ∉ fields.map Field.name := by
        simpa using List.find?_eq_none.mp found
      rw [ih rest, unknownKeys, unknownKeys, List.map_cons,
        List.filter_cons_of_pos (by simpa using unknown)]
      rfl
    | some field =>
      obtain ⟨content, inside, others, here, rest, rfl⟩ := (readEntries_cons_of_some found ..).mp read
      obtain ⟨member, rfl⟩ := name_of_find? found
      have known : field.name ∈ fields.map Field.name := List.mem_map_of_mem member
      rw [ih rest, closed field member _ _ _ here, unknownKeys, unknownKeys, List.map_cons,
        List.filter_cons_of_neg (by simpa using known)]
      rfl

/-- A field reports the keys that its section does not know. -/
def Field.Reports (keys : List String) (field : Field σ) : Prop :=
  ∀ value content inside, field.read value = some (content, inside) →
    ∃ entries, sectionEntries? keys value = some entries ∧ inside = unknownKeys keys entries

theorem reports_ofSection {name : String} {inner : List (Field α)} {start : α} {get : σ → α}
    {set : α → σ → σ} (closed : ∀ field ∈ inner, field.Closed) :
    (Field.ofSection name inner start get set).Reports (inner.map Field.name) := by
  intro value content inside found
  obtain ⟨entries, stands, read⟩ := Option.bind_eq_some_iff.mp found
  exact ⟨entries, stands, left_of_closed closed read⟩

theorem exists_reports : ∀ s ∈ schema, ∃ field ∈ fields, field.name = s.1 ∧ field.Reports s.2 := by
  have page : ∀ field ∈ pageFields, field.Closed := by simp [pageFields, closed_whole]
  have site : ∀ field ∈ siteFields, field.Closed := by simp [siteFields, closed_whole]
  have passes : ∀ field ∈ passFields, field.Closed := by simp [passFields, closed_whole]
  intro s member
  simp only [schema, List.mem_cons, List.not_mem_nil, or_false] at member
  rcases member with rfl | rfl | rfl
  · exact ⟨_, .head _, rfl, reports_ofSection page⟩
  · exact ⟨_, .tail _ (.head _), rfl, reports_ofSection site⟩
  · exact ⟨_, .tail _ (.tail _ (.head _)), rfl, reports_ofSection passes⟩

theorem leftAt_of_unknown {entry : String × Toml} (unknown : entry.1 ∉ schema.map Prod.fst) :
    leftAt fields entry = [[entry.1]] := by
  have none : fields.find? (fun field => field.name = entry.1) = none := by
    rw [List.find?_eq_none]
    intro field member
    have apart : field.name ≠ entry.1 := fun same => unknown (same ▸ List.mem_map_of_mem member)
    simpa using apart
  rw [leftAt, none]

theorem Lawful.find?_eq {fields : List (Field σ)} (lawful : Lawful fields) {field : Field σ}
    (member : field ∈ fields) : fields.find? (fun other => other.name = field.name) = some field := by
  have some_ : (fields.find? fun other => other.name = field.name).isSome := by
    rw [List.find?_isSome]
    exact ⟨field, member, by simp⟩
  obtain ⟨other, found⟩ := Option.isSome_iff_exists.mp some_
  obtain ⟨known, same⟩ := name_of_find? found
  rw [found, lawful.eq_of_name known member same]

theorem exists_leftAt (keys : (table.map Prod.fst).Nodup) {config : Config} {trails : List Trail}
    (read : readEntries fields table {} = some (config, trails)) {s : String × List String}
    (known : s ∈ schema) {value : Toml} (stands : (s.1, value) ∈ table) :
    ∃ entries, contents? table s.1 s.2 = some entries ∧
      leftAt fields (s.1, value) = (unknownKeys s.2 entries).map (s.1 :: ·) := by
  obtain ⟨field, member, same, reports⟩ := exists_reports s known
  have found := lookup_of_mem keys stands
  have reads := lawful_fields.readFrom keys read field member
  rw [same, found] at reads
  obtain ⟨inside, here⟩ := reads
  obtain ⟨entries, section_, rfl⟩ := reports _ _ _ here
  refine ⟨entries, by rw [contents?, found]; exact section_, ?_⟩
  rw [leftAt, ← same, lawful_fields.find?_eq member]
  simp only [here, Option.map_some, Option.getD_some]

theorem mem_unknownKeys {keys : List String} {trail : Trail} :
    trail ∈ unknownKeys keys entries ↔
      ∃ key, key ∈ entries.map Prod.fst ∧ key ∉ keys ∧ trail = [key] := by
  rw [unknownKeys, List.mem_map]
  constructor
  · rintro ⟨key, member, rfl⟩
    obtain ⟨here, unknown⟩ := List.mem_filter.mp member
    exact ⟨key, here, by simpa using unknown, rfl⟩
  · rintro ⟨key, here, unknown, rfl⟩
    exact ⟨key, List.mem_filter.mpr ⟨here, by simpa using unknown⟩, rfl⟩

theorem mem_of_contents {name : String} {keys : List String}
    (inside : contents? table name keys = some entries) (filled : entries ≠ []) :
    ∃ value, (name, value) ∈ table := by
  rw [contents?] at inside
  cases known : table.lookup name with
  | none =>
    rw [known] at inside
    exact absurd (Option.some.inj inside).symm filled
  | some value =>
    obtain ⟨front, back, rfl, -⟩ := List.lookup_eq_some_iff.mp known
    exact ⟨value, by simp⟩

theorem mem_left_iff (keys : (table.map Prod.fst).Nodup) {config : Config} {trails : List Trail}
    (read : readEntries fields table {} = some (config, trails)) {trail : Trail} :
    trail ∈ trails ↔ Outside table trail := by
  rw [left_of_readEntries read, List.mem_flatMap]
  constructor
  · rintro ⟨⟨name, value⟩, stands, left⟩
    have member : name ∈ table.map Prod.fst := List.mem_map_of_mem stands
    by_cases section_ : name ∈ schema.map Prod.fst
    · obtain ⟨s, known, rfl⟩ := List.mem_map.mp section_
      obtain ⟨entries, inside, all⟩ := exists_leftAt keys read known stands
      rw [all] at left
      obtain ⟨_, inner, rfl⟩ := List.mem_map.mp left
      obtain ⟨key, here, unknown, rfl⟩ := mem_unknownKeys.mp inner
      exact .inner known inside here unknown
    · rw [leftAt_of_unknown section_, List.mem_singleton] at left
      rw [left]
      exact .top member section_
  · rintro (⟨stands, unknown⟩ | ⟨known, inside, here, unknown⟩)
    · obtain ⟨entry, member, rfl⟩ := List.mem_map.mp stands
      exact ⟨entry, member, by rw [leftAt_of_unknown unknown]; exact List.mem_singleton_self _⟩
    · obtain ⟨value, stands⟩ := mem_of_contents inside (by rintro rfl; cases here)
      obtain ⟨others, also, all⟩ := exists_leftAt keys read known stands
      obtain rfl := Option.some.inj (inside.symm.trans also)
      refine ⟨_, stands, ?_⟩
      rw [all]
      exact List.mem_map_of_mem (mem_unknownKeys.mpr ⟨_, here, unknown, rfl⟩)

theorem head_of_leftAt {fields : List (Field σ)} {entry : String × Toml} {trail : Trail}
    (left : trail ∈ leftAt fields entry) : trail.head? = some entry.1 := by
  rw [leftAt] at left
  split at left
  · rw [List.mem_singleton.mp left]
    rfl
  · obtain ⟨_, _, rfl⟩ := List.mem_map.mp left
    rfl

theorem nodup_unknownKeys (own : (entries.map Prod.fst).Nodup) (keys : List String) :
    (unknownKeys keys entries).Nodup :=
  (own.filter _).map fun _ _ same => (List.cons.inj same).1

theorem distinct_contents (distinct : (Toml.table table).Distinct) {s : String × List String}
    (known : s ∈ schema) (inside : contents? table s.1 s.2 = some entries) :
    (entries.map Prod.fst).Nodup := by
  rw [contents?] at inside
  cases stands : table.lookup s.1 with
  | none =>
    rw [stands] at inside
    cases inside
    exact List.nodup_nil
  | some value =>
    rw [stands] at inside
    have own : ∀ s ∈ schema, s.2.Nodup := by decide
    exact distinct_sectionEntries (own s known) (distinct_of_lookup distinct stands) inside

theorem nodup_left (distinct : (Toml.table table).Distinct) {config : Config} {trails : List Trail}
    (read : readEntries fields table {} = some (config, trails)) : trails.Nodup := by
  have keys := distinct.keys
  rw [left_of_readEntries read, List.nodup_flatMap]
  constructor
  · rintro ⟨name, value⟩ stands
    by_cases section_ : name ∈ schema.map Prod.fst
    · obtain ⟨s, known, rfl⟩ := List.mem_map.mp section_
      obtain ⟨entries, inside, all⟩ := exists_leftAt keys read known stands
      rw [all]
      exact (nodup_unknownKeys (distinct_contents distinct known inside) s.2).map List.cons_injective
    · rw [leftAt_of_unknown section_]
      exact List.nodup_singleton _
  · refine (List.pairwise_map.mp keys).imp fun apart => ?_
    intro trail here there
    exact apart (Option.some.inj ((head_of_leftAt here).symm.trans (head_of_leftAt there)))

/-- The report of a text beside its plain reading: both give the same configuration, the report has
each outermost name outside the schema once, and only the values under the keys of the schema count. -/
theorem parse_reports (text : String) :
    ofText? text = (parse? text).map Prod.fst ∧
    (∀ config left, parse? text = some (config, left) →
      ∃ table, Toml.parse? text = some table ∧ Described table config ∧
        ∃ trails : List Trail, trails.Nodup ∧ (∀ trail, trail ∈ trails ↔ Outside table trail) ∧
          left = trails.map dotted) ∧
    ∀ other table otherTable, Toml.parse? text = some table → Toml.parse? other = some otherTable →
      Agree table otherTable → ofText? text = ofText? other := by
  refine ⟨ofText?_eq text, fun config left read => ?_,
    fun other table otherTable parsed also agree => ?_⟩
  · obtain ⟨table, trails, parsed, found, rfl⟩ := parse?_eq_some_iff.mp read
    have distinct := Toml.distinct_parse parsed
    have plain : ofTable? table = some config := by
      rw [← map_readEntries_fields distinct, found]
      rfl
    exact ⟨table, parsed, ofTable?_iff_described.mp plain, trails, nodup_left distinct found,
      fun trail => mem_left_iff distinct.keys found, rfl⟩
  · rw [ofText?, ofText?, parsed, also]
    exact ofTable?_eq_of_agree agree

example : (parse? "root = 1\npage.color.x = 1\n[site.global.deep]\nx = 1").map Prod.snd =
    some ["root", "page.color"] := by
  decide +kernel

def Written (table : Toml.Table) (name key : String) : Prop :=
  ∃ entries, (name, Toml.table entries) ∈ table ∧ key ∈ entries.map Prod.fst

def isTable : Toml → Bool
  | .table _ => true
  | _ => false

theorem not_written (none : ∀ entry ∈ table, isTable entry.2 = false) (name key : String) :
    ¬ Written table name key := by
  rintro ⟨entries, member, -⟩
  cases none _ member

/-- A section that is no table: an array sets fields of which no key is written, and of a moment a
key is reported that is not written. -/
theorem sections_without_keys :
    (¬ ∀ text table config left, Toml.parse? text = some table → parse? text = some (config, left) →
      ¬ Written table "page" "id" → config.page.id = none) ∧
    ¬ ∀ text table config left, Toml.parse? text = some table → parse? text = some (config, left) →
      ∀ key, dotted ["page", key] ∈ left → Written table "page" key := by
  constructor
  · intro claim
    have listed : ∃ table ∈ Toml.parse? "page = [\"x\"]",
        ∀ entry ∈ table, isTable entry.2 = false := by
      decide +kernel
    have read : (parse? "page = [\"x\"]").map (fun found => found.1.page.id) =
        some (some "x") := by
      decide +kernel
    obtain ⟨table, parsed, none⟩ := listed
    obtain ⟨⟨config, left⟩, found, id⟩ := Option.map_eq_some_iff.mp read
    cases (claim _ table config left parsed found (not_written none _ _)).symm.trans id
  · intro claim
    have listed : ∃ table ∈ Toml.parse? "page = 1979-05-27",
        ∀ entry ∈ table, isTable entry.2 = false := by
      decide +kernel
    have read : (parse? "page = 1979-05-27").map Prod.snd =
        some [dotted ["page", Toml.momentField]] := by
      decide +kernel
    obtain ⟨table, parsed, none⟩ := listed
    obtain ⟨⟨config, left⟩, found, rfl⟩ := Option.map_eq_some_iff.mp read
    exact not_written none _ _ (claim _ table config _ parsed found _ (List.mem_singleton_self _))

end PageTree.Config
