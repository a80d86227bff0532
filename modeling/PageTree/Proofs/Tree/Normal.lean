import PageTree.Proofs.Json.Merged
import PageTree.Proofs.Json.ReadBack
import PageTree.Proofs.Tree.Decoded

/-!
Nothing in a text is lost by decoding and encoding it. The value of the text that comes out is the
normal form of the value of the text that went in: the known members of each node stand first and
in a fixed order and are dropped when they are null, positions and their points become objects of
their known members alone, and every other member follows with its value unchanged.
-/

namespace PageTree

open Json (Written writtenFields)
open Json.Fields (entry)
open Json.Written (AllNumerals Integer IntegersOutsidePositions Members Names field? without
  fieldsOf value? unnamed ReadsAs properties? asU64? asString? merged mergedMembers mergedItems
  fieldsOf_eq_some_iff named?_eq_some_iff properties?_eq_some_iff mem_of_field?)

def Point.knownNames : List String := ["line", "column", "offset"]

/-- A point as an object of its known members, of which a missing or null offset is left out. -/
def Point.normal : Written → Written
  | .obj members => .obj (Members.pick knownNames members)
  | .arr items => .obj (Members.pick knownNames ((knownNames.map some).zip items))
  | other => other

def Position.knownNames : List String := ["start", "end"]

def Position.normalPoints (members : Members) : Members :=
  members.map fun member => (member.1, Point.normal member.2)

def Position.normal : Written → Written
  | .obj members => .obj (normalPoints (Members.pick knownNames members))
  | .arr items => .obj (normalPoints ((knownNames.map some).zip items))
  | other => other

def Data.normal : Written → Written
  | .obj members => .obj (Members.arrange knownNames members)
  | other => other

namespace Node

def normalField (name : Option String) (value : Written) : Written :=
  if name = some "position" then Position.normal value
  else if name = some "data" then Data.normal value
  else value

mutual

/-- The normal form of the value of a written node. -/
def normal : Written → Written
  | .obj members => .obj (Members.arrange knownNames (normalMembers members))
  | other => other

def normalMembers : List (Option String × Written) → Members
  | [] => []
  | (name, .arr items) :: members =>
    (name, if name = some "children" then .arr (normalItems items)
      else normalField name (.arr items)) :: normalMembers members
  | (name, value) :: members => (name, normalField name value) :: normalMembers members

def normalItems : List Written → List Written
  | [] => []
  | item :: items => normal item :: normalItems items

end

def normalChildren : Written → Written
  | .arr items => .arr (items.map normal)
  | other => other

def normalMember (name : Option String) (value : Written) : Written :=
  if name = some "children" then normalChildren value else normalField name value

theorem normalItems_eq_map (items : List Written) : normalItems items = items.map normal := by
  induction items with
  | nil => rfl
  | cons item items ih => rw [normalItems, ih, List.map_cons]

theorem normalMembers_eq_map (members : Members) :
    normalMembers members =
      members.map fun member => (member.1, normalMember member.1 member.2) := by
  induction members with
  | nil => rfl
  | cons member members ih =>
    obtain ⟨name, value⟩ := member
    rw [List.map_cons, ← ih]
    cases value with
    | arr items =>
      rw [normalMembers, normalItems_eq_map]
      rfl
    | _ =>
      by_cases children : name = some "children"
      · simp [normalMembers, normalMember, normalChildren, normalField, children]
      · simp [normalMembers, normalMember, children]

end Node

namespace Json.Written

theorem member?_mergedMembers (fields : List (String × Written)) (name : String)
    (before : Members) : Members.member? (mergedMembers (unnamed fields) before) name =
      ((fields.filter fun field => field.1 == name).getLast?.map fun field => field.2.merged).or
        (before.member? name) := by
  induction fields generalizing before with
  | nil => rfl
  | cons field fields ih =>
    obtain ⟨key, value⟩ := field
    have step : mergedMembers (unnamed ((key, value) :: fields)) before =
        mergedMembers (unnamed fields) (Members.set before (some key) value.merged) := rfl
    rw [step, ih, Members.member?_set]
    by_cases same : key = name
    · rw [if_pos same, List.filter_cons_of_pos (by simpa using same), List.getLast?_cons]
      cases (fields.filter fun field => field.1 == name).getLast? <;> rfl
    · rw [if_neg same, List.filter_cons_of_neg (by simpa using same)]

theorem member?_of_field? {fields : List (String × Written)} {name : String}
    {found : Option Written} (stands : field? fields name = some found) :
    Members.member? (mergedMembers (unnamed fields) []) name = found.map merged := by
  rw [member?_mergedMembers]
  unfold field? at stands
  split at stands
  · next none =>
    cases stands
    rw [none]
    rfl
  · next field only =>
    cases stands
    rw [only]
    rfl
  · cases stands

theorem others_mergedMembers (names : List String) (fields : List (String × Written))
    (before : Members) : Members.others names (mergedMembers (unnamed fields) before) =
      mergedMembers (without names fields) (Members.others names before) := by
  induction fields generalizing before with
  | nil => rfl
  | cons field fields ih =>
    obtain ⟨name, value⟩ := field
    have step : mergedMembers (unnamed ((name, value) :: fields)) before =
        mergedMembers (unnamed fields) (Members.set before (some name) value.merged) := rfl
    rw [step, ih, Members.others_set]
    by_cases known : name ∈ names
    · rw [if_pos known]
      simp [without, known]
    · rw [if_neg known]
      simp [without, known, mergedMembers]

/-- The members that are not known keep their values and their order. -/
theorem others_of_fieldsOf {limit : Nat} {names : List String} {fields : List (String × Written)}
    {result : Json.Fields}
    (integers : ∀ member ∈ without names fields,
      AllNumerals (fun n => n.Spelled ∧ Integer n) member.2)
    (done : fieldsOf (value? limit) (without names fields) [] = some result) :
    Members.others names (mergedMembers (unnamed fields) []) = writtenFields result := by
  obtain ⟨pairs, each, rfl⟩ := fieldsOf_eq_some_iff.mp done
  have merges := Json.merges_of_names
    (fun member inside _ read => Json.written_of_value? (integers member inside) read) each
  rw [others_mergedMembers, ← Json.mergedMembers_writtenFields merges []]
  rfl

theorem isNull_written {json : Json} (notNull : json ≠ .null) : json.written.isNull = false := by
  cases json with
  | null => exact absurd rfl notNull
  | _ => rfl

theorem isNull_of_normal {g : Written → Written} (null : g .null = .null) {written : Written}
    {json : Json} (notNull : json ≠ .null) (same : json.written = g written) :
    written.isNull = false := by
  cases written with
  | null =>
    have kept := isNull_written notNull
    rw [same, null] at kept
    cases kept
  | _ => rfl

theorem filter_of_optional {α : Type} {read : Written → Option α} {found : Option Written}
    {result : Option α} (reads : Written.optional read found = some result) {f : α → Json}
    {g : Written → Written} (null : g .null = .null)
    (value : ∀ written, ∀ x ∈ result, found = some written → written ≠ .null →
      read written = some x → f x ≠ .null ∧ (f x).written = g written.merged) :
    ((found.map merged).map g).filter (fun value => !value.isNull) =
      (result.map f).map Json.written := by
  unfold Written.optional at reads
  split at reads
  · cases reads
    rfl
  · cases reads
    simp [merged, null, isNull]
  · next written notNull =>
    obtain ⟨x, read, rfl⟩ := Option.map_eq_some_iff.mp reads
    obtain ⟨kept, same⟩ := value written x rfl rfl notNull read
    simp [← same, isNull_written kept]

theorem pick_cons (name : String) (names : List String) (members : Members) :
    Members.pick (name :: names) members =
      ((Members.present? members name).map fun value => (some name, value)).toList ++
        Members.pick names members := List.flatMap_cons

theorem writtenFields_append (fields others : Json.Fields) :
    writtenFields (fields ++ others) = writtenFields fields ++ writtenFields others := by
  simp only [Json.writtenFields_eq_map, List.map_append]

theorem writtenFields_entry (name : String) (value : Option Json) :
    writtenFields (entry name value) =
      ((value.map Json.written).map fun value => (some name, value)).toList := by
  cases value <;> rfl

theorem merged_of_asU64? {written : Written} (spelled : AllNumerals Numeral.Spelled written)
    {n : Nat} (read : asU64? written = some n) : written.merged = (Json.int n).written := by
  cases spelled with
  | @num numeral here =>
    simp only [asU64?, Numeral.asU64?] at read
    split at read
    · next i kept =>
      split at read
      · next positive =>
        cases read
        rw [Json.eq_ofInt_of_integer? here kept, Int.toNat_of_nonneg positive]
        rfl
      · cases read
    · cases read
  | _ => cases read

theorem AllNumerals.of_field? {p : Numeral → Prop} {fields : List (String × Written)}
    (all : AllNumerals p (.obj (unnamed fields))) {name : String} {value : Written}
    (stands : field? fields name = some (some value)) : AllNumerals p value :=
  all.field (name, value) (mem_of_field? stands)

end Json.Written

open Json.Written (pick_cons writtenFields_append writtenFields_entry merged_of_asU64?
  member?_of_field? others_of_fieldsOf filter_of_optional isNull_of_normal ne_null_of_value?)

namespace Point

theorem pick_of_reads {line column : Written} {offset : Option Written} {point : Point}
    (reads : Reads line column offset point)
    (spelled : ∀ written ∈ line :: column :: offset.toList,
      AllNumerals Json.Numeral.Spelled written)
    {members : Members} (hasLine : members.member? "line" = some line.merged)
    (hasColumn : members.member? "column" = some column.merged)
    (hasOffset : members.member? "offset" = offset.map merged) :
    Members.pick knownNames members = writtenFields point.fields := by
  have lineValue := merged_of_asU64? (spelled line (by simp)) reads.line
  have columnValue := merged_of_asU64? (spelled column (by simp)) reads.column
  have offsetValue := filter_of_optional (f := fun n : Nat => Json.int n) (g := id) reads.offset rfl
    fun written n _ known _ read =>
      ⟨by simp, (merged_of_asU64? (spelled written (by simp [known])) read).symm⟩
  rw [Option.map_id, id_eq] at offsetValue
  simp only [knownNames, pick_cons, Members.present?, hasLine, hasColumn, hasOffset, fields,
    writtenFields_append, writtenFields_entry, lineValue, columnValue]
  rw [offsetValue]
  simp [Members.pick, writtenFields, Json.written, Json.Written.isNull, Option.filter_some]

theorem written_toJson {written : Written} (spelled : AllNumerals Json.Numeral.Spelled written)
    {point : Point} (read : ofWritten? written = some point) :
    point.toJson.written = normal written.merged := by
  obtain ⟨line, column, offset, reads, inObject | inList⟩ := reads_of_ofWritten? read
  · obtain ⟨fields, rfl, hasLine, hasColumn, hasOffset⟩ := inObject
    have parts : ∀ written ∈ line :: column :: offset.toList,
        AllNumerals Json.Numeral.Spelled written := by
      simp only [List.mem_cons, Option.mem_toList]
      intro written inside
      rcases inside with rfl | rfl | known
      · exact spelled.of_field? hasLine
      · exact spelled.of_field? hasColumn
      · rw [Option.mem_def.mp known] at hasOffset
        exact spelled.of_field? hasOffset
    rw [toJson_eq, Json.written, merged, normal, pick_of_reads reads parts
      (member?_of_field? hasLine) (member?_of_field? hasColumn) (member?_of_field? hasOffset)]
  · subst inList
    rw [toJson_eq, Json.written, merged, normal, Json.Written.mergedItems_eq_map]
    cases offset <;> rw [pick_of_reads reads spelled.item rfl rfl rfl]

end Point

namespace Position

theorem written_toJson {written : Written} (spelled : AllNumerals Json.Numeral.Spelled written)
    {limit : Nat} {position : Position} (read : ofWritten? limit written = some position) :
    position.toJson.written = normal written.merged := by
  obtain ⟨start, finish, readStart, readFinish, inObject | inList⟩ := reads_of_ofWritten? read
  · obtain ⟨fields, rfl, hasStart, hasFinish⟩ := inObject
    have first := Point.written_toJson (spelled.of_field? hasStart) readStart
    have last := Point.written_toJson (spelled.of_field? hasFinish) readFinish
    have startKept : start.merged.isNull = false :=
      isNull_of_normal rfl (by simp [Point.toJson]) first
    have finishKept : finish.merged.isNull = false :=
      isNull_of_normal rfl (by simp [Point.toJson]) last
    rw [toJson, Json.written, merged, normal]
    simp only [knownNames, pick_cons, Members.present?, member?_of_field? hasStart,
      member?_of_field? hasFinish, Option.map_some, Option.filter_some, startKept, finishKept]
    simp [normalPoints, Members.pick, writtenFields, first, last]
  · subst inList
    have each := spelled.item
    have first := Point.written_toJson (each start (by simp)) readStart
    have last := Point.written_toJson (each finish (by simp)) readFinish
    rw [toJson, Json.written, writtenFields, writtenFields, writtenFields, first, last]
    rfl

end Position

namespace Data

theorem written_toJson {written : Written}
    (integers : AllNumerals (fun n => n.Spelled ∧ Integer n) written)
    {limit : Nat} {data : Data} (read : ofWritten? limit written = some data) :
    data.toJson.written = normal written.merged := by
  obtain ⟨below, fields, rfl, rfl, reads⟩ := ofWritten?_eq_some_iff.mp read
  obtain ⟨id, hasId, readId⟩ := reads.id
  obtain ⟨properties, hasProperties, readProperties⟩ := reads.properties
  have idValue := filter_of_optional (f := fun id : Json => id) (g := fun value => value) readId rfl
    fun written json _ known notNull read => by
      rw [known] at hasId
      have inside := integers.of_field? hasId
      exact ⟨ne_null_of_value? (inside.imp fun _ both => both.2) notNull read,
        Json.written_of_value? inside read⟩
  have propertiesValue := filter_of_optional (f := Json.obj) (g := fun value => value)
    readProperties rfl fun written result _ known notNull read => by
      rw [known] at hasProperties
      have inside := integers.of_field? hasProperties
      obtain ⟨low, members, rfl, rfl, done⟩ := properties?_eq_some_iff.mp read
      have read : value? (low + 1) (.obj members) = some (.obj result) := by rw [value?, done]; rfl
      exact ⟨by simp, Json.written_of_value? inside read⟩
  have rest := others_of_fieldsOf
    (AllNumerals.without fun field member _ => integers.field field member) reads.rest
  rw [Option.map_id'] at idValue propertiesValue
  rw [Option.map_id'] at idValue
  rw [toJson_eq, Json.written, writtenFields_append, merged, normal, Members.arrange, rest, known]
  simp only [knownNames, pick_cons, Members.present?, member?_of_field? hasId,
    member?_of_field? hasProperties, writtenFields_append, writtenFields_entry, idValue,
    propertiesValue]
  simp [Members.pick]

end Data

theorem Kind.tag_ofTag (tag : String) : (Kind.ofTag tag).tag = tag := by
  unfold Kind.ofTag
  cases found : Kind.known.find? fun kind => kind.tag == tag with
  | none => rfl
  | some kind => simpa using List.find?_some found

namespace Node

theorem normalMember_null (name : Option String) : normalMember name .null = .null := by
  unfold normalMember normalField
  split_ifs <;> rfl

theorem normalMember_plain {name : Option String} (noChildren : name ≠ some "children")
    (noPosition : name ≠ some "position") (noData : name ≠ some "data") (value : Written) :
    normalMember name value = value := by
  rw [normalMember, if_neg noChildren, normalField, if_neg noPosition, if_neg noData]

theorem member?_normalMembers (members : Members) (name : String) :
    Members.member? (normalMembers members) name =
      (members.member? name).map (normalMember (some name)) := by
  rw [normalMembers_eq_map]
  induction members with
  | nil => rfl
  | cons member members ih =>
    obtain ⟨key, value⟩ := member
    by_cases same : key = some name
    · simp [Members.member?, same]
    · simp only [Members.member?] at ih
      simp only [Members.member?, List.map_cons, List.find?_cons, same, decide_false, ih]

theorem others_normalMembers (members : Members) :
    Members.others knownNames (normalMembers members) = Members.others knownNames members := by
  rw [normalMembers_eq_map]
  induction members with
  | nil => rfl
  | cons member members ih =>
    obtain ⟨key, value⟩ := member
    simp only [Members.others] at ih
    by_cases known : (!(knownNames.map some).contains key) = true
    · have apart : ∀ name ∈ knownNames, key ≠ some name := by
        intro name member same
        rw [same] at known
        simp [member] at known
      have plain := normalMember_plain (apart "children" (by decide))
        (apart "position" (by decide)) (apart "data" (by decide)) value
      simp only [Members.others, List.map_cons, List.filter_cons, if_pos known, ih, plain]
    · simp only [Members.others, List.map_cons, List.filter_cons, if_neg known, ih]

/-- A known field of a node, and the member of the normal form that it comes from. -/
theorem present?_normalMembers {α : Type} {fields : List (String × Written)} {name : String}
    {read : Written → Option α} {result : Option α} (reads : ReadsAs fields name read result)
    {f : α → Json} (value : ∀ written, ∀ x ∈ result, field? fields name = some (some written) →
      written ≠ .null → read written = some x →
        f x ≠ .null ∧ (f x).written = normalMember (some name) written.merged) :
    Members.present? (normalMembers (mergedMembers (unnamed fields) [])) name =
      (result.map f).map Json.written := by
  obtain ⟨found, stands, reads⟩ := reads
  rw [Members.present?, member?_normalMembers, member?_of_field? stands]
  apply filter_of_optional reads (normalMember_null (some name))
  intro written x given known notNull read
  rw [known] at stands
  exact value written x given stands notNull read

theorem present?_text {fields : List (String × Written)} {name : String} {result : Option String}
    (reads : ReadsAs fields name asString? result) (noChildren : name ≠ "children")
    (noPosition : name ≠ "position") (noData : name ≠ "data") :
    Members.present? (normalMembers (mergedMembers (unnamed fields) [])) name =
      (result.map Json.str).map Json.written := by
  apply present?_normalMembers reads
  intro written text _ _ _ read
  rw [normalMember_plain (by simpa) (by simpa) (by simpa), asString?_eq_some_iff.mp read]
  exact ⟨by simp, rfl⟩

theorem written_children {items : List Written} {nodes : List Node}
    (each : List.Forall₂ (fun item node => node.toJson.written = normal item.merged) items nodes) :
    (Json.arr (listToJson nodes)).written =
      normalMember (some "children") (Written.arr items).merged := by
  have same := Json.map_eq_map_of_forall₂ (each.imp fun _ _ same => same.symm)
  rw [Json.written, Json.writtenItems_eq_map, listToJson_eq_map, List.map_map, merged,
    Json.Written.mergedItems_eq_map]
  simp only [normalMember, normalChildren, if_true, List.map_map]
  exact congrArg Written.arr same.symm

theorem present?_children {fields : List (String × Written)} {below : Nat}
    {result : Option (List Node)}
    (reads : ReadsAs fields "children" (children? below) result)
    (each : ∀ nodes ∈ result, ∃ items, field? fields "children" = some (some (.arr items)) ∧
      List.Forall₂ (fun item node => node.toJson.written = normal item.merged) items nodes) :
    Members.present? (normalMembers (mergedMembers (unnamed fields) [])) "children" =
      (result.map fun nodes => Json.arr (listToJson nodes)).map Json.written := by
  apply present?_normalMembers reads
  intro written nodes known stands _ _
  obtain ⟨items, standsThere, related⟩ := each nodes known
  rw [stands] at standsThere
  cases standsThere
  exact ⟨by simp, written_children related⟩

theorem written_toJson_of_reads {limit below : Nat} {fields : List (String × Written)} {node : Node}
    (reads : Reads limit (children? below) fields node)
    (spelled : ∀ field ∈ fields, AllNumerals Json.Numeral.Spelled field.2)
    (integers : ∀ field ∈ fields, field.1 ≠ "position" → field.1 ≠ "children" →
      AllNumerals (fun n => n.Spelled ∧ Integer n) field.2)
    (each : ∀ nodes ∈ node.children, ∃ items,
      field? fields "children" = some (some (.arr items)) ∧
        List.Forall₂ (fun item node => node.toJson.written = normal item.merged) items nodes) :
    node.toJson.written = normal (Written.obj (unnamed fields)).merged := by
  have childrenValue := present?_children reads.children each
  have value := present?_text reads.value (by simp) (by simp) (by simp)
  have url := present?_text reads.url (by simp) (by simp) (by simp)
  have label := present?_text reads.label (by simp) (by simp) (by simp)
  have positionValue := present?_normalMembers (f := Position.toJson) reads.position
    fun written position _ stands _ read => ⟨by simp [Position.toJson],
      Position.written_toJson (spelled _ (mem_of_field? stands)) read⟩
  have dataValue := present?_normalMembers (f := Data.toJson) reads.data
    fun written data _ stands _ read => ⟨by simp [Data.toJson],
      Data.written_toJson (integers _ (mem_of_field? stands) (by simp) (by simp)) read⟩
  have type : Members.present? (normalMembers (mergedMembers (unnamed fields) [])) "type" =
      some (Json.str node.kind.tag).written := by
    obtain ⟨tag, stands, kind⟩ := reads.kind
    rw [Members.present?, member?_normalMembers, member?_of_field? stands, kind, Kind.tag_ofTag]
    rfl
  have rest := others_of_fieldsOf (AllNumerals.without fun field member apart =>
    integers field member (fun same => apart (by simp [same, knownNames]))
      (fun same => apart (by simp [same, knownNames]))) reads.rest
  rw [toJson_eq, Json.written, writtenFields_append, merged, normal, Members.arrange,
    others_normalMembers, rest, known]
  simp only [knownNames, pick_cons, type, childrenValue, value, url, label, positionValue,
    dataValue, writtenFields_append, writtenFields_entry]
  simp [Members.pick, writtenFields]

theorem written_toJson {limit : Nat} {written : Written} {node : Node}
    (spelled : AllNumerals Json.Numeral.Spelled written)
    (integers : written.IntegersOutsidePositions)
    (read : ofWritten? limit written = some node) :
    node.toJson.written = normal written.merged := by
  refine read_induction (motive := fun written node =>
    AllNumerals Json.Numeral.Spelled written → written.IntegersOutsidePositions →
      node.toJson.written = normal written.merged) ?_ read spelled integers
  intro limit fields node reads children spelled integers
  have each := spelled.field
  cases integers with
  | obj other below =>
    have whole : ∀ field ∈ fields, field.1 ≠ "position" → field.1 ≠ "children" →
        AllNumerals (fun n => n.Spelled ∧ Integer n) field.2 := by
      intro field member noPosition noChildren
      have integers := other (some field.1, field.2) (List.mem_map_of_mem member)
        (by simpa using noPosition) (by simpa using noChildren)
      exact (each field member).and integers
    apply written_toJson_of_reads reads each whole
    intro nodes known
    obtain ⟨items, stands, related⟩ := children nodes known
    have member := mem_of_field? stands
    have inMembers : (some "children", Written.arr items) ∈ unnamed fields :=
      List.mem_map_of_mem member
    have both := (List.forall₂_and_left _ _).mpr ⟨fun item inside => inside, related⟩
    refine ⟨items, stands, both.imp fun item node holds => ?_⟩
    exact holds.2 ((each _ member).item item holds.1) (below items inMembers item holds.1)

/-- The value of an encoded tree is the normal form of the value of the text it was decoded from. -/
theorem ofText?_encode {text : String} {tree : Node} (accepted : decode text = .ok tree)
    (integers : ∀ written, Json.readDocument text.toList = some written →
      written.IntegersOutsidePositions) (pretty : Bool) :
    ∃ value, Written.ofText? text = some value ∧
      Written.ofText? (tree.encode pretty) = some (normal value) := by
  unfold decode at accepted
  split at accepted
  · cases accepted
  · next node decoded =>
    obtain ⟨written, stands, read⟩ := Option.bind_eq_some_iff.mp decoded
    have same : node = tree := by
      split at accepted <;> cases accepted
      rfl
    subst same
    have spelled := Json.spelled_of_readDocument stands
    have formed := formed_of_ofWritten? spelled read
    have canonical := canonical_of_ofWritten? (integers written stands) read
    have back := Json.readDocument_write pretty (integral_toJson formed canonical)
    refine ⟨written.merged, by rw [Written.ofText?, stands]; rfl, ?_⟩
    rw [Written.ofText?, encode, back, Option.map_some,
      Json.merged_written (distinct_toJson formed canonical),
      written_toJson spelled (integers written stands) read]

/-- A text with a repeated name, a known member that is null and a position without names. -/
theorem ofText?_encode_repeated :
    decode "\x7b\"x\":0,\"position\":[[1,1],[1,2]],\"url\":null,\"type\":\"root\",\"x\":1\x7d" =
        .ok (((ofKind .root).withPosition ⟨⟨1, 1, none⟩, ⟨1, 2, none⟩⟩).withField "x" (.int 1)) ∧
      ∃ value, Written.ofText?
          "\x7b\"x\":0,\"position\":[[1,1],[1,2]],\"url\":null,\"type\":\"root\",\"x\":1\x7d" =
            some value ∧
        Written.ofText? ((((ofKind .root).withPosition ⟨⟨1, 1, none⟩, ⟨1, 2, none⟩⟩).withField "x"
          (.int 1)).encode true) = some (normal value) := by
  let value : Json := .obj [("x", .int 0),
    ("position", .arr [.arr [.int 1, .int 1], .arr [.int 1, .int 2]]), ("url", .null),
    ("type", .str "root"), ("x", .int 1)]
  have integral : value.Integral := by
    simp [value, Json.integral_obj_iff, Json.integral_arr_iff, Json.integral_int_iff,
      Json.integral_null, Json.integral_str, Json.InRange, Json.i64Bound, Json.u64Bound]
  have text : "\x7b\"x\":0,\"position\":[[1,1],[1,2]],\"url\":null,\"type\":\"root\",\"x\":1\x7d" =
      value.write false := by
    decide +kernel
  have read := text ▸ Json.readDocument_write false integral
  have accepted :
      decode "\x7b\"x\":0,\"position\":[[1,1],[1,2]],\"url\":null,\"type\":\"root\",\"x\":1\x7d" =
        .ok (((ofKind .root).withPosition ⟨⟨1, 1, none⟩, ⟨1, 2, none⟩⟩).withField "x" (.int 1)) := by
    rw [decode, read]
    rfl
  refine ⟨accepted, ofText?_encode accepted (fun written stands => ?_) true⟩
  rw [read] at stands
  cases stands
  rw [Json.written, Json.writtenFields_eq_map]
  refine .obj ?_ (by simp)
  have number : ∀ n : Int, (Json.Numeral.ofInt n).integer?.isSome →
      AllNumerals Integer (Json.int n).written := fun _ kept => .num kept
  have zero := number 0 rfl
  have one := number 1 rfl
  have absent : AllNumerals Integer Json.null.written := .null
  have tag : AllNumerals Integer (Json.str "root").written := .str _
  simp [zero, one, absent, tag]

end Node

end PageTree
