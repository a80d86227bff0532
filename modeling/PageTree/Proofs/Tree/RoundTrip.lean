import PageTree.Proofs.Tree.Decoding

/-!
Decoding undoes encoding. A canonical tree whose text nests within the limit is read back exactly as
it was, with all its fields in order, and one whose text nests deeper is refused. Every part of a
node restores itself in this sense: its written form reads as the part, and as nothing else, exactly
within the limits that allow its depth.
-/

namespace PageTree

open Json (Written Denotes denotes_of_integral depthOfFields depthOfItems depthOfFields_append
  writtenFields writtenItems u64Bound)
open Json.Fields (entry lookup names lookup_append lookup_entry lookup_of_not_mem names_append)
open Json.Written (field? named? without fieldsOf value? asString? unnamed ReadsAs
  properties? Names fieldsOf_eq_some_iff named?_eq_some_iff)

/-- The written form of a value reads as one thing only, and within the limits that allow its
depth. -/
def Restores {α : Type} (read : Nat → Written → Option α) (value : α) (json : Json) : Prop :=
  ∀ limit result, read limit json.written = some result ↔ result = value ∧ json.depth ≤ limit

namespace Json

def namedFields (fields : Fields) : List (String × Written) :=
  fields.map fun field => (field.1, field.2.written)

theorem writtenFields_eq_unnamed (fields : Fields) :
    writtenFields fields = unnamed (namedFields fields) := by
  rw [writtenFields_eq_map, unnamed, namedFields, List.map_map]
  rfl

theorem filter_namedFields_of_not_mem {fields : Fields} {name : String}
    (absent : name ∉ names fields) :
    ((namedFields fields).filter fun field => field.1 == name) = [] := by
  rw [List.filter_eq_nil_iff]
  intro field member
  obtain ⟨source, stands, rfl⟩ := List.mem_map.mp member
  have inNames : source.1 ∈ names fields := List.mem_map_of_mem stands
  simp only [beq_iff_eq]
  intro same
  subst same
  exact absent inNames

theorem field?_namedFields {fields : Fields} (distinct : (names fields).Nodup) (name : String) :
    field? (namedFields fields) name = some ((lookup fields name).map written) := by
  induction fields with
  | nil => rfl
  | cons field fields ih =>
    obtain ⟨key, value⟩ := field
    obtain ⟨fresh, rest⟩ := List.nodup_cons.mp distinct
    by_cases same : key = name
    · subst same
      have none := filter_namedFields_of_not_mem fresh
      simp only [namedFields] at none
      simp [field?, namedFields, lookup, none]
    · have ih := ih rest
      simp only [field?, namedFields] at ih
      simp only [field?, namedFields, List.map_cons, lookup, if_neg same]
      rw [List.filter_cons_of_neg (by simpa using same)]
      exact ih

theorem without_namedFields {known rest : Fields} {list : List String}
    (within : ∀ name ∈ names known, name ∈ list) (apart : ∀ name ∈ names rest, name ∉ list) :
    without list (namedFields (known ++ rest)) = writtenFields rest := by
  have dropped : ((namedFields known).filter fun field => !list.contains field.1) = [] := by
    rw [List.filter_eq_nil_iff]
    intro field member
    obtain ⟨source, stands, rfl⟩ := List.mem_map.mp member
    have inList := within source.1 (List.mem_map_of_mem stands)
    simpa using inList
  have kept :
      ((namedFields rest).filter fun field => !list.contains field.1) = namedFields rest := by
    rw [List.filter_eq_self]
    intro field member
    obtain ⟨source, stands, rfl⟩ := List.mem_map.mp member
    have outside := apart source.1 (List.mem_map_of_mem stands)
    simpa using outside
  rw [without, namedFields, List.map_append, List.filter_append, ← namedFields, ← namedFields,
    dropped, kept, List.nil_append, writtenFields_eq_unnamed]
  rfl

theorem readsAs_namedFields {α : Type} {fields : Fields} (distinct : (names fields).Nodup)
    {name : String} {read : Written → Option α} {result : Option α} :
    ReadsAs (namedFields fields) name read result ↔
      Written.optional read ((lookup fields name).map written) = some result := by
  rw [ReadsAs]
  constructor
  · intro field
    obtain ⟨found, stands, reads⟩ := field
    rw [field?_namedFields distinct] at stands
    rwa [← Option.some.inj stands] at reads
  · intro reads
    exact ⟨_, field?_namedFields distinct name, reads⟩

theorem written_eq_null_iff (value : Json) : value.written = .null ↔ value = null := by
  cases value <;> simp [written]

/-- An optional field is restored if its value is, and `null` does not stand for it. -/
theorem optional_eq_some_iff {α : Type} {read : Nat → Written → Option α} {f : α → Json}
    {field : Option α} (each : ∀ x ∈ field, f x ≠ null ∧ Restores read x (f x)) (limit : Nat)
    (result : Option α) : Written.optional (read limit) ((field.map f).map written) = some result ↔
      result = field ∧ ∀ json ∈ field.map f, json.depth ≤ limit := by
  cases field with
  | none => simp [Written.optional, eq_comm]
  | some x =>
    obtain ⟨notNull, restores⟩ := each x rfl
    have value : (f x).written ≠ .null := fun null => notNull ((written_eq_null_iff _).mp null)
    have read : Written.optional (read limit) (some (f x).written) =
        (read limit (f x).written).map some := by
      unfold Written.optional
      split
      · next same => cases same
      · next same => exact absurd (Option.some.inj same) value
      · next same => rw [Option.some.inj same]
    simp only [Option.map_some, read, Option.map_eq_some_iff, restores limit, Option.mem_def,
      Option.some.injEq, forall_eq']
    constructor
    · intro read
      obtain ⟨_, ⟨rfl, fits⟩, rfl⟩ := read
      exact ⟨rfl, fits⟩
    · intro both
      obtain ⟨rfl, fits⟩ := both
      exact ⟨x, ⟨rfl, fits⟩, rfl⟩

theorem restores_str (s : String) : Restores (fun _ => asString?) s (.str s) := by
  intro limit result
  simp [written, asString?, depth, eq_comm]

theorem depthOfFields_entry_le_iff {key : String} {value : Option Json} {bound : Nat} :
    depthOfFields (entry key value) ≤ bound ↔ ∀ json ∈ value, json.depth ≤ bound := by
  cases value <;> simp [entry, depthOfFields]

theorem fieldsOf_writtenFields {fields : Fields} (sound : fields.Sound) (limit : Nat)
    (result : Fields) :
    fieldsOf (value? limit) (writtenFields fields) [] = some result ↔
      result = fields ∧ depthOfFields fields ≤ limit := by
  have same : Fields.putAll [] fields = fields := Fields.putAll_of_nodup sound.distinct.here
  rw [fieldsOf_eq_some_iff]
  simp only [forall₂_names_written_iff fun field member => sound.value member]
  constructor
  · intro read
    obtain ⟨_, ⟨rfl, fits⟩, rfl⟩ := read
    exact ⟨same, fits⟩
  · intro both
    obtain ⟨rfl, fits⟩ := both
    exact ⟨result, ⟨rfl, fits⟩, same⟩

end Json

open Json (namedFields writtenFields_eq_unnamed field?_namedFields without_namedFields
  readsAs_namedFields optional_eq_some_iff restores_str depthOfFields_entry_le_iff
  fieldsOf_writtenFields)

theorem asU64?_written {n : Nat} (word : n < u64Bound) :
    Written.asU64? (Json.int n).written = some n := by
  have kept := Json.integer?_ofInt (Json.integral_nat word).range
  simp [Json.written, Written.asU64?, Json.Numeral.asU64?, kept]

namespace Point

theorem depth_toJson (point : Point) : point.toJson.depth = 1 := by
  cases offset : point.offset <;>
    simp [toJson_eq, fields, entry, offset, Json.depth, Json.depthOfFields]

theorem ofWritten?_written {point : Point} (formed : point.Formed) :
    ofWritten? point.toJson.written = some point := by
  have distinct := names_fields point
  have lookups : lookup point.fields "line" = some (.int point.line) ∧
      lookup point.fields "column" = some (.int point.column) ∧
      lookup point.fields "offset" = point.offset.map fun offset : Nat => Json.int offset := by
    refine ⟨rfl, rfl, ?_⟩
    rw [fields, lookup_append, lookup_entry, if_pos rfl]
    rfl
  obtain ⟨line, column, offset⟩ := lookups
  rw [toJson_eq, Json.written, ofWritten?, writtenFields_eq_unnamed, named?_eq_some_iff.mpr rfl,
    Option.bind_some, ofFields?_eq_some_iff]
  refine ⟨_, _, _, by rw [field?_namedFields distinct, line]; rfl,
    by rw [field?_namedFields distinct, column]; rfl,
    by rw [field?_namedFields distinct, offset], ?_⟩
  refine ⟨asU64?_written formed.line, asU64?_written formed.column, ?_⟩
  cases known : point.offset with
  | none => rfl
  | some offset =>
    have read := asU64?_written (formed.offset offset known)
    simp only [Json.written] at read
    simp only [Option.map_some, Json.written, Written.optional, read]

end Point

namespace Position

theorem depth_toJson (position : Position) : position.toJson.depth = 2 := by
  simp [toJson, Json.depth, Json.depthOfFields, Point.depth_toJson]

theorem restores {position : Position} (formed : position.Formed) :
    Restores ofWritten? position position.toJson := by
  intro limit result
  have distinct :
      (names [("start", position.start.toJson), ("end", position.finish.toJson)]).Nodup := by
    simp [names]
  have start := Point.ofWritten?_written formed.start
  have finish := Point.ofWritten?_written formed.finish
  have read : ofFields? (namedFields [("start", position.start.toJson),
      ("end", position.finish.toJson)]) = some position := by
    rw [ofFields?_eq_some_iff]
    exact ⟨_, _, by rw [field?_namedFields distinct]; rfl, by rw [field?_namedFields distinct]; rfl,
      start, finish⟩
  rw [depth_toJson, toJson, Json.written, ofWritten?, writtenFields_eq_unnamed,
    named?_eq_some_iff.mpr rfl, Option.bind_some, read]
  split
  · next fits => simp [fits, eq_comm]
  · next tight => simp [tight]

end Position

theorem Json.restores_properties {fields : Json.Fields} (sound : fields.Sound) :
    Restores properties? fields (.obj fields) := by
  intro limit result
  rw [Json.written, Json.depth]
  cases limit with
  | zero => simp [properties?]
  | succ limit =>
    rw [properties?, fieldsOf_writtenFields sound, Nat.add_le_add_iff_right]

namespace Data

theorem sound_rest {data : Data} (formed : data.Formed) (canonical : data.Canonical) :
    data.rest.Sound := ⟨formed.rest, canonical.rest⟩

theorem lookups {data : Data} (canonical : data.Canonical) :
    lookup (data.known ++ data.rest) "id" = data.id ∧
      lookup (data.known ++ data.rest) "hProperties" = data.properties.map .obj := by
  have absent : ∀ name ∈ knownNames, lookup data.rest name = none := fun name member =>
    lookup_of_not_mem fun inRest => apart_knownNames canonical name inRest member
  have id := absent "id" (by decide)
  have properties := absent "hProperties" (by decide)
  constructor <;> simp [known, lookup_append, lookup_entry, id, properties]

theorem eq_iff {data other : Data} : data = other ↔
    data.id = other.id ∧ data.properties = other.properties ∧ data.rest = other.rest := by
  cases data
  cases other
  simp

theorem depth_le_iff (data : Data) (limit : Nat) : data.toJson.depth ≤ limit + 1 ↔
    (∀ json ∈ data.id, json.depth ≤ limit) ∧
      (∀ json ∈ data.properties.map Json.obj, json.depth ≤ limit) ∧
      depthOfFields data.rest ≤ limit := by
  rw [toJson_eq, Json.depth, Nat.add_le_add_iff_right, known, depthOfFields_append,
    depthOfFields_append, Nat.max_le, Nat.max_le, depthOfFields_entry_le_iff,
    depthOfFields_entry_le_iff, and_assoc]

theorem reads_known_iff {data : Data} (formed : data.Formed) (canonical : data.Canonical)
    (limit : Nat) (result : Data) : Reads limit (namedFields (data.known ++ data.rest)) result ↔
      result = data ∧ data.toJson.depth ≤ limit + 1 := by
  have distinct := names_nodup formed canonical
  obtain ⟨hasId, hasProperties⟩ := lookups canonical
  have others := without_namedFields data.names_known.subset (apart_knownNames canonical)
  have sound : ∀ fields ∈ data.properties, fields.Sound := fun fields member =>
    ⟨formed.properties fields member, canonical.properties fields member⟩
  have id : ReadsAs (namedFields (data.known ++ data.rest)) "id" (value? limit) result.id ↔
      result.id = data.id ∧ ∀ json ∈ data.id, json.depth ≤ limit := by
    have restored := optional_eq_some_iff (f := fun id : Json => id) (fun id member =>
      ⟨(canonical.id id member).1, denotes_of_integral (canonical.id id member).2
        (formed.id id member)⟩) limit result.id
    rw [Option.map_id'] at restored
    rw [readsAs_namedFields distinct, hasId, restored]
  have properties : ReadsAs (namedFields (data.known ++ data.rest)) "hProperties"
      (properties? limit) result.properties ↔ result.properties = data.properties ∧
        ∀ json ∈ data.properties.map Json.obj, json.depth ≤ limit := by
    rw [readsAs_namedFields distinct, hasProperties]
    exact optional_eq_some_iff (fun fields member =>
      ⟨by simp, Json.restores_properties (sound fields member)⟩) limit result.properties
  have rest := fieldsOf_writtenFields (sound_rest formed canonical) limit result.rest
  rw [← others] at rest
  rw [eq_iff, depth_le_iff]
  constructor
  · intro reads
    obtain ⟨sameId, idFits⟩ := id.mp reads.id
    obtain ⟨sameProperties, propertiesFit⟩ := properties.mp reads.properties
    obtain ⟨sameRest, restFits⟩ := rest.mp reads.rest
    exact ⟨⟨sameId, sameProperties, sameRest⟩, idFits, propertiesFit, restFits⟩
  · intro parts
    obtain ⟨⟨sameId, sameProperties, sameRest⟩, idFits, propertiesFit, restFits⟩ := parts
    exact ⟨id.mpr ⟨sameId, idFits⟩, properties.mpr ⟨sameProperties, propertiesFit⟩,
      rest.mpr ⟨sameRest, restFits⟩⟩

theorem restores {data : Data} (formed : data.Formed) (canonical : data.Canonical) :
    Restores ofWritten? data data.toJson := by
  intro limit result
  cases limit with
  | zero => simp [toJson_eq, ofWritten?, Json.depth]
  | succ limit =>
    rw [← reads_known_iff formed canonical, ← ofFields?_eq_some_iff, toJson_eq, Json.written,
      ofWritten?, writtenFields_eq_unnamed, named?_eq_some_iff.mpr rfl, Option.bind_some]

end Data

theorem Kind.ofTag_tag {kind : Kind}
    (own : ∀ tag, kind = .other tag → ∀ known ∈ Kind.known, known.tag ≠ tag) :
    Kind.ofTag kind.tag = kind := by
  cases kind with
  | other tag =>
    have unknown : (Kind.known.find? fun kind => kind.tag == tag) = none := by
      rw [List.find?_eq_none]
      intro known member
      simpa using own tag rfl known member
    change (Kind.known.find? fun kind => kind.tag == tag).getD (.other tag) = .other tag
    rw [unknown, Option.getD_none]
  | _ => rfl

namespace Node

theorem lookup_known {node : Node} (canonical : node.CanonicalHere) {name : String}
    (known : name ∈ knownNames) :
    lookup (node.known ++ node.rest) name = lookup node.known name := by
  have absent := lookup_of_not_mem fun inRest => apart_knownNames canonical name inRest known
  rw [lookup_append, absent, Option.or_none]

theorem eq_iff {node other : Node} : node = other ↔
    node.kind = other.kind ∧ node.children = other.children ∧ node.value = other.value ∧
      node.url = other.url ∧ node.label = other.label ∧ node.position = other.position ∧
      node.data = other.data ∧ node.rest = other.rest := by
  cases node
  cases other
  simp

theorem depth_le_iff (node : Node) (limit : Nat) : node.toJson.depth ≤ limit + 1 ↔
    (∀ json ∈ node.children.map (fun nodes => Json.arr (listToJson nodes)), json.depth ≤ limit) ∧
      (∀ json ∈ node.value.map Json.str, json.depth ≤ limit) ∧
      (∀ json ∈ node.url.map Json.str, json.depth ≤ limit) ∧
      (∀ json ∈ node.label.map Json.str, json.depth ≤ limit) ∧
      (∀ json ∈ node.position.map Position.toJson, json.depth ≤ limit) ∧
      (∀ json ∈ node.data.map Data.toJson, json.depth ≤ limit) ∧
      depthOfFields node.rest ≤ limit := by
  have type : depthOfFields [("type", Json.str node.kind.tag)] ≤ limit := Nat.zero_le _
  simp only [toJson_eq, Json.depth, Nat.add_le_add_iff_right, known, depthOfFields_append,
    Nat.max_le, depthOfFields_entry_le_iff, type, true_and, and_assoc]

/-- A list of children is restored if each child is. -/
theorem restores_children {nodes : List Node}
    (each : ∀ child ∈ nodes, Restores ofWritten? child child.toJson) :
    Restores children? nodes (.arr (listToJson nodes)) := by
  intro limit result
  cases limit with
  | zero => simp [children?, Json.depth]
  | succ limit =>
    rw [Json.written, children?, mapM_eq_some_iff, Json.depth, Nat.add_le_add_iff_right]
    induction nodes generalizing result with
    | nil => simp [listToJson, writtenItems, depthOfItems]
    | cons node nodes ih =>
      have first := each node List.mem_cons_self limit
      have rest := ih fun child member => each child (List.mem_cons_of_mem _ member)
      cases result with
      | nil => simp [listToJson, writtenItems]
      | cons other result =>
        rw [listToJson, writtenItems, List.forall₂_cons, first, rest, depthOfItems, Nat.max_le,
          List.cons.injEq]
        exact and_and_and_comm

theorem lookups_known (node : Node) :
    lookup node.known "children" = node.children.map (fun nodes => Json.arr (listToJson nodes)) ∧
      lookup node.known "value" = node.value.map Json.str ∧
      lookup node.known "url" = node.url.map Json.str ∧
      lookup node.known "label" = node.label.map Json.str ∧
      lookup node.known "position" = node.position.map Position.toJson ∧
      lookup node.known "data" = node.data.map Data.toJson := by
  simp [known, lookup_append, lookup_entry, lookup]

theorem readsAs_known {node : Node} (formed : node.FormedHere) (canonical : node.CanonicalHere)
    {α : Type} (read : Nat → Written → Option α) {f : α → Json} {field : Option α} (name : String)
    (known : name ∈ knownNames) (stands : lookup node.known name = field.map f)
    (each : ∀ x ∈ field, f x ≠ .null ∧ Restores read x (f x)) (limit : Nat) (result : Option α) :
    ReadsAs (namedFields (node.known ++ node.rest)) name (read limit) result ↔
      result = field ∧ ∀ json ∈ field.map f, json.depth ≤ limit := by
  rw [readsAs_namedFields (names_nodup formed canonical), lookup_known canonical known, stands]
  exact optional_eq_some_iff each limit result

theorem readsKind_known {node : Node} (formed : node.FormedHere) (canonical : node.CanonicalHere)
    (kind : Kind) : (∃ tag, field? (namedFields (node.known ++ node.rest)) "type" =
      some (some (.str (some tag))) ∧ kind = Kind.ofTag tag) ↔ kind = node.kind := by
  have same := Kind.ofTag_tag canonical.kind
  have entry : lookup node.known "type" = some (.str node.kind.tag) := rfl
  rw [field?_namedFields (names_nodup formed canonical), lookup_known canonical (by decide), entry]
  constructor
  · intro kindRead
    obtain ⟨tag, stands, read⟩ := kindRead
    obtain rfl : node.kind.tag = tag := by simpa [Json.written] using stands
    rw [read, same]
  · intro read
    exact ⟨node.kind.tag, rfl, by rw [read, same]⟩

theorem reads_known_iff {node : Node} (formed : node.FormedHere) (canonical : node.CanonicalHere)
    (each : ∀ child ∈ node.childList, Restores ofWritten? child child.toJson) (limit : Nat)
    (result : Node) :
    Reads limit (children? limit) (namedFields (node.known ++ node.rest)) result ↔
      result = node ∧ node.toJson.depth ≤ limit + 1 := by
  have text : ∀ value : Option String, ∀ s ∈ value,
      Json.str s ≠ .null ∧ Restores (fun _ => asString?) s (.str s) :=
    fun _ s _ => ⟨by simp, restores_str s⟩
  have list : ∀ nodes ∈ node.children, Json.arr (listToJson nodes) ≠ .null ∧
      Restores children? nodes (.arr (listToJson nodes)) := by
    intro nodes stands
    have same : node.childList = nodes := by rw [childList, Option.mem_def.mp stands]; rfl
    rw [same] at each
    exact ⟨by simp, restores_children each⟩
  obtain ⟨hasChildren, hasValue, hasUrl, hasLabel, hasPosition, hasData⟩ := lookups_known node
  have kind := readsKind_known formed canonical result.kind
  have children := readsAs_known formed canonical children? "children" (by decide) hasChildren
    list limit result.children
  have value := readsAs_known formed canonical (fun _ => asString?) "value" (by decide) hasValue
    (text node.value) limit result.value
  have url := readsAs_known formed canonical (fun _ => asString?) "url" (by decide) hasUrl
    (text node.url) limit result.url
  have label := readsAs_known formed canonical (fun _ => asString?) "label" (by decide) hasLabel
    (text node.label) limit result.label
  have position := readsAs_known formed canonical Position.ofWritten? "position" (by decide)
    hasPosition (fun position stands => ⟨by simp [Position.toJson],
      Position.restores (formed.position position stands)⟩) limit result.position
  have data := readsAs_known formed canonical Data.ofWritten? "data" (by decide) hasData
    (fun data stands => ⟨by simp [Data.toJson],
      Data.restores (formed.data data stands) (canonical.data data stands)⟩) limit result.data
  have rest := fieldsOf_writtenFields ⟨formed.rest, canonical.rest⟩ limit result.rest
  rw [← without_namedFields node.names_known.subset (apart_knownNames canonical)] at rest
  rw [eq_iff, depth_le_iff]
  constructor
  · intro reads
    obtain ⟨sameChildren, childrenFit⟩ := children.mp reads.children
    obtain ⟨sameValue, valueFits⟩ := value.mp reads.value
    obtain ⟨sameUrl, urlFits⟩ := url.mp reads.url
    obtain ⟨sameLabel, labelFits⟩ := label.mp reads.label
    obtain ⟨samePosition, positionFits⟩ := position.mp reads.position
    obtain ⟨sameData, dataFits⟩ := data.mp reads.data
    obtain ⟨sameRest, restFits⟩ := rest.mp reads.rest
    exact ⟨⟨kind.mp reads.kind, sameChildren, sameValue, sameUrl, sameLabel, samePosition,
      sameData, sameRest⟩, childrenFit, valueFits, urlFits, labelFits, positionFits, dataFits,
      restFits⟩
  · intro parts
    obtain ⟨⟨sameKind, sameChildren, sameValue, sameUrl, sameLabel, samePosition, sameData,
      sameRest⟩, childrenFit, valueFits, urlFits, labelFits, positionFits, dataFits,
      restFits⟩ := parts
    exact ⟨kind.mpr sameKind, children.mpr ⟨sameChildren, childrenFit⟩,
      value.mpr ⟨sameValue, valueFits⟩, url.mpr ⟨sameUrl, urlFits⟩,
      label.mpr ⟨sameLabel, labelFits⟩, position.mpr ⟨samePosition, positionFits⟩,
      data.mpr ⟨sameData, dataFits⟩, rest.mpr ⟨sameRest, restFits⟩⟩

theorem restores {node : Node} (formed : node.Formed) (canonical : node.Canonical) :
    Restores ofWritten? node node.toJson := by
  induction node using child_induction with
  | step node ih =>
    intro limit result
    obtain ⟨here, below⟩ := formed
    obtain ⟨own, each⟩ := canonical
    cases limit with
    | zero => simp [toJson_eq, ofWritten?, Json.depth]
    | succ limit =>
      have children : ∀ child ∈ node.childList, Restores ofWritten? child child.toJson :=
        fun child member => ih child member (below child member) (each child member)
      rw [← reads_known_iff here own children, ← ofFields?_eq_some_iff, toJson_eq, Json.written,
        ofWritten?, writtenFields_eq_unnamed, named?_eq_some_iff.mpr rfl, Option.bind_some]

end Node

namespace Node

/-- Reading a written tree gives the tree or fails, depending on how deeply the text nests. -/
theorem decode_encode {tree : Node} (formed : tree.Formed) (canonical : tree.Canonical)
    (isRoot : tree.kind = .root) (pretty : Bool) :
    decode (tree.encode pretty) =
      if Json.nesting (tree.encode pretty) ≤ 127 then .ok tree else .error .invalidJson := by
  have integral := integral_toJson formed canonical
  have restores := restores formed canonical Json.depthLimit
  rw [encode, Json.nesting_write pretty integral, decode, Json.readDocument_write pretty integral,
    Option.bind_some]
  by_cases fits : tree.toJson.depth ≤ 127
  · rw [(restores tree).mpr ⟨rfl, fits⟩, if_pos fits]
    simp only [isRoot, if_true]
  · have refused : ofWritten? Json.depthLimit tree.toJson.written = none := by
      rw [Option.eq_none_iff_forall_ne_some]
      intro result read
      exact fits ((restores result).mp read).2
    rw [refused, if_neg fits]

theorem decode_encode_heading :
    (root [heading 2 [text "\"\n"]]).Formed ∧ (root [heading 2 [text "\"\n"]]).Canonical ∧
      decode ((root [heading 2 [text "\"\n"]]).encode true) =
        .ok (root [heading 2 [text "\"\n"]]) := by
  have noFields : (Json.obj []).Distinct ∧ (Json.obj []).Integral :=
    ⟨Json.distinct_obj List.nodup_nil (by simp), Json.integral_obj (by simp)⟩
  have depth : (Json.obj [("depth", .int 2)]).Distinct ∧ (Json.obj [("depth", .int 2)]).Integral :=
    ⟨Json.distinct_obj (by simp [names]) (by simp [Json.distinct_int]),
      Json.integral_obj (by simpa using Json.integral_nat (show 2 < Json.u64Bound by decide))⟩
  have formed : (root [heading 2 [text "\"\n"]]).Formed := by
    refine .intro ⟨by simp [root, parent], by simp [root, parent], noFields.1⟩ ?_
    simp only [root, parent, childList, Option.getD_some, List.mem_singleton, forall_eq]
    refine .intro ⟨by simp [heading, parent, withField], by simp [heading, parent, withField],
      depth.1⟩ ?_
    simp only [heading, withField, parent, childList, Option.getD_some, List.mem_singleton,
      forall_eq]
    exact .intro ⟨by simp [text, literal], by simp [text, literal], noFields.1⟩
      (by simp [text, literal, childList])
  have canonical : (root [heading 2 [text "\"\n"]]).Canonical := by
    refine .intro ⟨by simp [root, parent], by simp [root, parent], noFields.2,
      by simp [root, parent, names]⟩ ?_
    simp only [root, parent, childList, Option.getD_some, List.mem_singleton, forall_eq]
    refine .intro ⟨by simp [heading, parent, withField], by simp [heading, parent, withField],
      depth.2, by simp [heading, parent, withField, names, Json.Fields.put]⟩ ?_
    simp only [heading, withField, parent, childList, Option.getD_some, List.mem_singleton,
      forall_eq]
    exact .intro ⟨by simp [text, literal], by simp [text, literal], noFields.2,
      by simp [text, literal, names]⟩ (by simp [text, literal, childList])
  have shallow : Json.nesting ((root [heading 2 [text "\"\n"]]).encode true) ≤ 127 := by
    rw [encode, Json.nesting_write true (integral_toJson formed canonical)]
    decide
  have read := decode_encode formed canonical rfl true
  rw [if_pos shallow] at read
  exact ⟨formed, canonical, read⟩

end Node

end PageTree
