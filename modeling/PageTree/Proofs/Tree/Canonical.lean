import PageTree.Proofs.Json.Denotation
import PageTree.Proofs.Tree.Induction
import PageTree.Tree.Encoding

/-!
Which trees have a written form of their own. A tree is formed when its lists of fields and its
numbers are such as a map and a machine word can hold. It is canonical when no field is written
under the name of another, no kind is written under the tag of another, and all numbers are 64-bit
integers. The JSON value of a canonical tree has distinct names and no doubles.
-/

namespace PageTree

namespace Json

/-- The values of some fields, and the names of the fields, read and write without loss. -/
structure Fields.Sound (fields : Fields) : Prop where
  distinct : (obj fields).Distinct
  integral : (obj fields).Integral

theorem Fields.Sound.value {fields : Fields} (sound : fields.Sound) {field : String × Json}
    (member : field ∈ fields) : Denotes field.2 :=
  denotes_of_integral (sound.integral.field field member) (sound.distinct.field field member)

theorem distinct_obj {fields : Fields} (names : (Fields.names fields).Nodup)
    (values : ∀ field ∈ fields, Distinct field.2) : (obj fields).Distinct := by
  refine .intro names fun part member => ?_
  obtain ⟨field, stands, rfl⟩ := List.mem_map.mp (show part ∈ fields.map Prod.snd from member)
  exact values field stands

theorem integral_obj {fields : Fields} (values : ∀ field ∈ fields, Integral field.2) :
    (obj fields).Integral := by
  refine .intro trivial fun part member => ?_
  obtain ⟨field, stands, rfl⟩ := List.mem_map.mp (show part ∈ fields.map Prod.snd from member)
  exact values field stands

theorem distinct_int (n : Int) : (int n).Distinct := .intro trivial (by simp [parts])

theorem integral_nat {n : Nat} (word : n < u64Bound) : (int n).Integral := by
  have range : InRange n := by
    constructor
    · omega
    · exact_mod_cast word
  exact .intro range (by simp [parts])

end Json

open Json (Distinct Integral u64Bound)

structure Point.Formed (point : Point) : Prop where
  line : point.line < u64Bound
  column : point.column < u64Bound
  offset : ∀ offset ∈ point.offset, offset < u64Bound

structure Position.Formed (position : Position) : Prop where
  start : position.start.Formed
  finish : position.finish.Formed

structure Data.Formed (data : Data) : Prop where
  id : ∀ id ∈ data.id, id.Distinct
  properties : ∀ fields ∈ data.properties, (Json.obj fields).Distinct
  rest : (Json.obj data.rest).Distinct

structure Data.Canonical (data : Data) : Prop where
  id : ∀ id ∈ data.id, id ≠ .null ∧ id.Integral
  properties : ∀ fields ∈ data.properties, (Json.obj fields).Integral
  rest : (Json.obj data.rest).Integral
  names : ∀ name ∈ Json.Fields.names data.rest, name ≠ "id" ∧ name ≠ "hProperties"

namespace Node

/-- What the fields of one node can hold: maps and machine words. -/
structure FormedHere (node : Node) : Prop where
  position : ∀ position ∈ node.position, position.Formed
  data : ∀ data ∈ node.data, data.Formed
  rest : (Json.obj node.rest).Distinct

/-- One node that has a written form of its own, whatever its children are. -/
structure CanonicalHere (node : Node) : Prop where
  kind : ∀ tag, node.kind = .other tag → ∀ kind ∈ Kind.known, kind.tag ≠ tag
  data : ∀ data ∈ node.data, data.Canonical
  rest : (Json.obj node.rest).Integral
  names : ∀ name ∈ Json.Fields.names node.rest, name ≠ "type" ∧ name ≠ "children" ∧
    name ≠ "value" ∧ name ≠ "url" ∧ name ≠ "label" ∧ name ≠ "position" ∧ name ≠ "data"

def Formed (node : Node) : Prop := Everywhere FormedHere node

def Canonical (node : Node) : Prop := Everywhere CanonicalHere node

end Node

open Json.Fields (entry names mem_entry names_append names_entry)

def Point.fields (point : Point) : Json.Fields :=
  [("line", .int point.line), ("column", .int point.column)]
    ++ entry "offset" (point.offset.map fun offset : Nat => .int offset)

theorem Point.toJson_eq (point : Point) : point.toJson = .obj point.fields := by
  cases same : point.offset <;> simp [Point.toJson, Point.fields, entry, same]

def Data.known (data : Data) : Json.Fields :=
  entry "id" data.id ++ entry "hProperties" (data.properties.map .obj)

theorem Data.toJson_eq (data : Data) : data.toJson = .obj (data.known ++ data.rest) := by
  simp [Data.toJson, Data.known, entry, Function.comp_def]

namespace Node

def known (node : Node) : Json.Fields :=
  [("type", .str node.kind.tag)]
    ++ entry "children" (node.children.map fun nodes => .arr (listToJson nodes))
    ++ entry "value" (node.value.map .str) ++ entry "url" (node.url.map .str)
    ++ entry "label" (node.label.map .str) ++ entry "position" (node.position.map Position.toJson)
    ++ entry "data" (node.data.map Data.toJson)

theorem toJson_eq (node : Node) : node.toJson = .obj (node.known ++ node.rest) := by
  obtain ⟨kind, children, value, url, label, position, data, rest⟩ := node
  cases children <;>
    simp [toJson, known, entry, childrenField, textField, Function.comp_def]

theorem listToJson_eq_map (nodes : List Node) : listToJson nodes = nodes.map toJson := by
  induction nodes with
  | nil => rfl
  | cons node nodes ih => rw [listToJson, ih, List.map_cons]

theorem names_known (node : Node) : (names node.known).Sublist knownNames := by
  have type : (names [("type", Json.str node.kind.tag)]).Sublist ["type"] := List.Sublist.refl _
  simp only [known, names_append]
  exact ((((((type.append (names_entry ..)).append (names_entry ..)).append (names_entry ..)).append
    (names_entry ..)).append (names_entry ..)).append (names_entry ..))

end Node

theorem Data.names_known (data : Data) : (names data.known).Sublist Data.knownNames := by
  simp only [Data.known, names_append]
  exact (names_entry ..).append (names_entry ..)

theorem nodup_names_append {known rest : Json.Fields} {list : List String}
    (within : (names known).Sublist list) (distinct : list.Nodup)
    (restDistinct : (names rest).Nodup) (apart : ∀ name ∈ names rest, name ∉ list) :
    (names (known ++ rest)).Nodup := by
  rw [names_append]
  refine List.nodup_append.mpr ⟨distinct.sublist within, restDistinct, ?_⟩
  intro name inKnown other inRest same
  rw [← same] at inRest
  exact apart name inRest (within.subset inKnown)

namespace Point

theorem names_fields (point : Point) : (names point.fields).Nodup := by
  cases offset : point.offset <;> simp [fields, names, entry, offset]

end Point

namespace Data

theorem apart_knownNames {data : Data} (canonical : data.Canonical) :
    ∀ name ∈ names data.rest, name ∉ knownNames := by
  intro name member
  obtain ⟨id, properties⟩ := canonical.names name member
  simp [knownNames, id, properties]

theorem names_nodup {data : Data} (formed : data.Formed) (canonical : data.Canonical) :
    (names (data.known ++ data.rest)).Nodup :=
  nodup_names_append data.names_known (by decide) formed.rest.here (apart_knownNames canonical)

end Data

namespace Node

theorem apart_knownNames {node : Node} (canonical : node.CanonicalHere) :
    ∀ name ∈ names node.rest, name ∉ knownNames := by
  intro name member
  have apart := canonical.names name member
  simpa [knownNames] using apart

theorem names_nodup {node : Node} (formed : node.FormedHere) (canonical : node.CanonicalHere) :
    (names (node.known ++ node.rest)).Nodup :=
  nodup_names_append node.names_known (by decide) formed.rest.here (apart_knownNames canonical)

end Node

/-- A fact that holds of machine words, texts, lists and objects with distinct names. -/
structure Json.Usual (p : Json → Prop) : Prop where
  word : ∀ n : Nat, n < u64Bound → p (.int n)
  text : ∀ s, p (.str s)
  list : ∀ items, p (.arr items)
  object : ∀ fields, (names fields).Nodup → p (.obj fields)

namespace Json.Usual

variable {p : Json → Prop}

theorem everywhere_word (usual : Usual p) {n : Nat} (word : n < u64Bound) :
    Everywhere p (.int n) := .intro (usual.word n word) (by simp [parts])

theorem everywhere_text (usual : Usual p) (s : String) : Everywhere p (.str s) :=
  .intro (usual.text s) (by simp [parts])

theorem everywhere_object (usual : Usual p) {fields : Fields} (distinct : (names fields).Nodup)
    (values : ∀ field ∈ fields, Everywhere p field.2) : Everywhere p (.obj fields) := by
  refine .intro (usual.object fields distinct) fun part member => ?_
  obtain ⟨field, stands, rfl⟩ := List.mem_map.mp member
  exact values field stands

end Json.Usual

theorem Json.usual_numberInRange : Json.Usual Json.NumberInRange where
  word := fun _ word => (Json.integral_nat word).here
  text := fun _ => trivial
  list := fun _ => trivial
  object := fun _ _ => trivial

theorem Json.usual_namesDistinct : Json.Usual Json.NamesDistinct where
  word := fun _ _ => trivial
  text := fun _ => trivial
  list := fun _ => trivial
  object := fun _ distinct => distinct

structure Data.Holds (p : Json → Prop) (data : Data) : Prop where
  id : ∀ id ∈ data.id, Json.Everywhere p id
  properties : ∀ fields ∈ data.properties, Json.Everywhere p (.obj fields)
  rest : Json.Everywhere p (.obj data.rest)

structure Node.Holds (p : Json → Prop) (node : Node) : Prop where
  data : ∀ data ∈ node.data, data.Holds p
  rest : Json.Everywhere p (.obj node.rest)

section Usual

variable {p : Json → Prop} (usual : Json.Usual p)

include usual

theorem Point.everywhere_toJson {point : Point} (formed : point.Formed) :
    Json.Everywhere p point.toJson := by
  rw [toJson_eq]
  refine usual.everywhere_object point.names_fields fun field member => ?_
  rw [fields, List.mem_append] at member
  rcases member with first | last
  · simp only [List.mem_cons, List.not_mem_nil, or_false] at first
    rcases first with rfl | rfl
    · exact usual.everywhere_word formed.line
    · exact usual.everywhere_word formed.column
  · obtain ⟨offset, known, same⟩ := Option.map_eq_some_iff.mp (mem_entry.mp last).2
    rw [← same]
    exact usual.everywhere_word (formed.offset offset known)

theorem Position.everywhere_toJson {position : Position} (formed : position.Formed) :
    Json.Everywhere p position.toJson := by
  rw [toJson]
  refine usual.everywhere_object (by simp [names]) fun field member => ?_
  simp only [List.mem_cons, List.not_mem_nil, or_false] at member
  rcases member with rfl | rfl
  · exact Point.everywhere_toJson usual formed.start
  · exact Point.everywhere_toJson usual formed.finish

theorem Data.everywhere_toJson {data : Data} (formed : data.Formed) (canonical : data.Canonical)
    (holds : data.Holds p) : Json.Everywhere p data.toJson := by
  rw [toJson_eq]
  refine usual.everywhere_object (names_nodup formed canonical) fun field member => ?_
  simp only [known, List.mem_append, mem_entry] at member
  rcases member with (⟨-, id⟩ | ⟨-, properties⟩) | rest
  · exact holds.id _ id
  · obtain ⟨fields, known, same⟩ := Option.map_eq_some_iff.mp properties
    rw [← same]
    exact holds.properties fields known
  · exact holds.rest.field field rest

namespace Node

theorem everywhere_toJson {node : Node} (formed : node.Formed) (canonical : node.Canonical)
    (holds : node.Everywhere (Holds p)) : Json.Everywhere p node.toJson := by
  induction node using child_induction with
  | step node ih =>
    obtain ⟨here, below⟩ := formed
    obtain ⟨own, each⟩ := canonical
    obtain ⟨values, all⟩ := holds
    have text : ∀ (value : Option String) (json : Json), value.map Json.str = some json →
        Json.Everywhere p json := by
      intro value json same
      obtain ⟨s, -, rfl⟩ := Option.map_eq_some_iff.mp same
      exact usual.everywhere_text s
    rw [toJson_eq]
    refine usual.everywhere_object (names_nodup here own) fun field member => ?_
    simp only [known, List.mem_append, mem_entry, List.mem_singleton] at member
    rcases member with ((((((rfl | ⟨-, children⟩) | ⟨-, value⟩) | ⟨-, url⟩) | ⟨-, label⟩) |
      ⟨-, position⟩) | ⟨-, data⟩) | rest
    · exact usual.everywhere_text _
    · obtain ⟨nodes, stands, same⟩ := Option.map_eq_some_iff.mp children
      have list : node.childList = nodes := by rw [childList, stands, Option.getD_some]
      rw [← same, listToJson_eq_map]
      refine .intro (usual.list _) fun part member => ?_
      obtain ⟨child, inNodes, rfl⟩ := List.mem_map.mp (show part ∈ nodes.map toJson from member)
      rw [← list] at inNodes
      exact ih child inNodes (below child inNodes) (each child inNodes) (all child inNodes)
    · exact text _ _ value
    · exact text _ _ url
    · exact text _ _ label
    · obtain ⟨place, stands, same⟩ := Option.map_eq_some_iff.mp position
      rw [← same]
      exact Position.everywhere_toJson usual (here.position place stands)
    · obtain ⟨hints, stands, same⟩ := Option.map_eq_some_iff.mp data
      rw [← same]
      exact Data.everywhere_toJson usual (here.data hints stands) (own.data hints stands)
        (values.data hints stands)
    · exact values.rest.field field rest

end Node

end Usual

namespace Node

theorem integral_toJson {node : Node} (formed : node.Formed) (canonical : node.Canonical) :
    node.toJson.Integral :=
  everywhere_toJson Json.usual_numberInRange formed canonical <|
    canonical.imp fun _ own => ⟨fun data known =>
      ⟨fun id stands => ((own.data data known).id id stands).2, (own.data data known).properties,
        (own.data data known).rest⟩, own.rest⟩

theorem distinct_toJson {node : Node} (formed : node.Formed) (canonical : node.Canonical) :
    node.toJson.Distinct :=
  everywhere_toJson Json.usual_namesDistinct formed canonical <|
    formed.imp fun _ here => ⟨fun data known =>
      ⟨(here.data data known).id, (here.data data known).properties, (here.data data known).rest⟩,
        here.rest⟩

end Node

end PageTree
