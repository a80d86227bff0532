import PageTree.Proofs.Tree.Decoded
import PageTree.Proofs.Tree.RoundTrip

/-!
What a program may do to a tree without losing it when the tree is stored. A node is storable when
its fields are such as can be held and as can be told apart again once they are written; putting
plain values into a storable node under names of their own leaves it storable, and so does any change
to its children, its value, its target or its label.
-/

namespace PageTree

namespace Json

/-- A value that a text can hold without loss. -/
structure Lossless (value : Json) : Prop where
  distinct : value.Distinct
  integral : value.Integral

def Plain : Json → Prop
  | null | bool _ | str _ => True
  | _ => False

theorem Plain.lossless {value : Json} (plain : value.Plain) : value.Lossless := by
  cases value with
  | null => exact ⟨.intro trivial (by simp [parts]), .intro trivial (by simp [parts])⟩
  | bool b => exact ⟨.intro trivial (by simp [parts]), .intro trivial (by simp [parts])⟩
  | str s => exact ⟨.intro trivial (by simp [parts]), .intro trivial (by simp [parts])⟩
  | int n => exact plain.elim
  | double bits => exact plain.elim
  | arr items => exact plain.elim
  | obj fields => exact plain.elim

theorem lossless_nat {n : Nat} (word : n < u64Bound) : Lossless (.int n) :=
  ⟨distinct_int n, integral_nat word⟩

theorem lossless_arr {items : List Json} (each : ∀ item ∈ items, Lossless item) :
    Lossless (.arr items) :=
  ⟨.intro trivial fun item member => (each item member).distinct,
    .intro trivial fun item member => (each item member).integral⟩

theorem Fields.sound_nil : Fields.Sound [] :=
  ⟨distinct_obj List.nodup_nil (by simp), integral_obj (by simp)⟩

theorem Fields.Sound.put {fields : Fields} (sound : fields.Sound) (key : String) {value : Json}
    (lossless : value.Lossless) : (fields.put key value).Sound := by
  refine ⟨distinct_obj (Fields.nodup_put sound.distinct.here key value) ?_, integral_obj ?_⟩
  · intro field member
    rcases Fields.mem_put member with rfl | old
    · exact lossless.distinct
    · exact sound.distinct.field field old
  · intro field member
    rcases Fields.mem_put member with rfl | old
    · exact lossless.integral
    · exact sound.integral.field field old

theorem Fields.Sound.remove {fields : Fields} (sound : fields.Sound) (key : String) :
    (fields.remove key).Sound := by
  have within : (fields.remove key).Sublist fields := List.filter_sublist
  have names : (Fields.names (fields.remove key)).Nodup :=
    List.Nodup.sublist (within.map Prod.fst) sound.distinct.here
  exact ⟨distinct_obj names fun field member => sound.distinct.field field (within.subset member),
    integral_obj fun field member => sound.integral.field field (within.subset member)⟩

end Json

open Json (Lossless)

/-- Hints that are read back as they were written. -/
structure Data.Storable (data : Data) : Prop where
  formed : data.Formed
  canonical : data.Canonical

namespace Data

theorem storable_empty : Storable {} :=
  ⟨⟨by simp, by simp, Json.Fields.sound_nil.distinct⟩,
    ⟨by simp, by simp, Json.Fields.sound_nil.integral, by simp [Json.Fields.names]⟩⟩

namespace Storable

variable {data : Data} (storable : data.Storable)

include storable

theorem properties : (data.properties.getD []).Sound := by
  cases known : data.properties with
  | none => exact Json.Fields.sound_nil
  | some fields =>
    exact ⟨storable.formed.properties fields known, storable.canonical.properties fields known⟩

theorem withProperties {fields : Json.Fields} (sound : fields.Sound) :
    Storable { data with properties := some fields } :=
  ⟨⟨storable.formed.id, by simpa using sound.distinct, storable.formed.rest⟩,
    ⟨storable.canonical.id, by simpa using sound.integral, storable.canonical.rest,
      storable.canonical.names⟩⟩

theorem withoutId : Storable { data with id := none } :=
  ⟨⟨by simp, storable.formed.properties, storable.formed.rest⟩,
    ⟨by simp, storable.canonical.properties, storable.canonical.rest, storable.canonical.names⟩⟩

end Storable

end Data

namespace Node

/-- One node whose own fields are read back as they were written. -/
structure StorableHere (node : Node) : Prop where
  formed : node.FormedHere
  canonical : node.CanonicalHere

def Storable (node : Node) : Prop := Everywhere StorableHere node

theorem Storable.formed {node : Node} (storable : node.Storable) : node.Formed :=
  storable.imp fun _ here => here.formed

theorem Storable.canonical {node : Node} (storable : node.Storable) : node.Canonical :=
  storable.imp fun _ here => here.canonical

theorem storable_of_formed {node : Node} (formed : node.Formed) (canonical : node.Canonical) :
    node.Storable := by
  induction node using child_induction with
  | step node ih =>
    obtain ⟨here, below⟩ := formed
    obtain ⟨own, each⟩ := canonical
    exact .intro ⟨here, own⟩ fun child member => ih child member (below child member)
      (each child member)

theorem Storable.nesting_encode {node : Node} (storable : node.Storable) (pretty : Bool) :
    Json.nesting (node.encode pretty) = node.toJson.depth :=
  Json.nesting_write pretty (integral_toJson storable.formed storable.canonical)

/-- The text of a storable tree is read back as the tree, unless it nests too deeply. -/
theorem Storable.decode_eq {tree : Node} (storable : tree.Storable) (isRoot : tree.kind = .root)
    (pretty : Bool) : decode (tree.encode pretty) =
      if tree.toJson.depth ≤ Json.depthLimit then .ok tree else .error .invalidJson := by
  have integral := integral_toJson storable.formed storable.canonical
  have restores := restores storable.formed storable.canonical Json.depthLimit
  rw [decode, encode, Json.readDocument_write pretty integral, Option.bind_some]
  by_cases fits : tree.toJson.depth ≤ Json.depthLimit
  · rw [(restores tree).mpr ⟨rfl, fits⟩, if_pos fits]
    simp only [isRoot, if_true]
  · have refused : ofWritten? Json.depthLimit tree.toJson.written = none := by
      rw [Option.eq_none_iff_forall_ne_some]
      intro result read
      exact fits ((restores result).mp read).2
    rw [refused, if_neg fits]

theorem Storable.decode_line {tree : Node} (storable : tree.Storable) (pretty : Bool) :
    decode (tree.encode pretty ++ "\n") = decode (tree.encode pretty) := by
  have integral := integral_toJson storable.formed storable.canonical
  have line : Json.Blank ['\n'] := by simp [Json.Blank, Json.isBlank]
  have same : Json.readDocument (tree.encode pretty ++ "\n").toList =
      Json.readDocument (tree.encode pretty).toList := by
    rw [String.toList_append, encode, Json.readDocument_write pretty integral]
    exact Json.readDocument_append pretty integral line
  rw [decode, decode, same]

theorem storableHere_of_fields {node : Node} (kind : Kind.ofTag node.kind.tag = node.kind)
    (position : node.position = none) (data : node.data = none) (rest : node.rest = []) :
    node.StorableHere where
  formed := ⟨by simp [position], by simp [data], rest ▸ Json.Fields.sound_nil.distinct⟩
  canonical := by
    refine ⟨fun tag same => ?_, by simp [data], rest ▸ Json.Fields.sound_nil.integral,
      by simp [rest, Json.Fields.names]⟩
    rw [same] at kind
    exact ofTag_own kind

namespace StorableHere

variable {node : Node} (here : node.StorableHere)

include here

theorem of_same {other : Node} (kind : other.kind = node.kind)
    (position : other.position = node.position) (data : other.data = node.data)
    (rest : other.rest = node.rest) : other.StorableHere where
  formed := ⟨position ▸ here.formed.position, data ▸ here.formed.data, rest ▸ here.formed.rest⟩
  canonical := ⟨kind ▸ here.canonical.kind, data ▸ here.canonical.data, rest ▸ here.canonical.rest,
    rest ▸ here.canonical.names⟩

theorem sound : node.rest.Sound := ⟨here.formed.rest, here.canonical.rest⟩

theorem withRest {rest : Json.Fields} (sound : rest.Sound)
    (others : ∀ name ∈ Json.Fields.names rest, name ∉ knownNames) :
    StorableHere { node with rest } :=
  ⟨⟨here.formed.position, here.formed.data, sound.distinct⟩,
    ⟨here.canonical.kind, here.canonical.data, sound.integral, fun name member => by
      simpa [knownNames] using others name member⟩⟩

theorem withField {key : String} (other : key ∉ knownNames) {value : Json}
    (lossless : value.Lossless) : (node.withField key value).StorableHere := by
  refine here.withRest (here.sound.put key lossless) fun name member => ?_
  rcases Json.Fields.mem_names_put.mp member with rfl | old
  · exact other
  · exact apart_knownNames here.canonical name old

theorem withPosition {position : Position} (formed : position.Formed) :
    (node.withPosition position).StorableHere :=
  ⟨⟨by simpa [Node.withPosition] using formed, here.formed.data, here.formed.rest⟩,
    ⟨here.canonical.kind, here.canonical.data, here.canonical.rest, here.canonical.names⟩⟩

theorem withoutPosition : StorableHere { node with position := none } :=
  ⟨⟨by simp, here.formed.data, here.formed.rest⟩,
    ⟨here.canonical.kind, here.canonical.data, here.canonical.rest, here.canonical.names⟩⟩

theorem withData {data : Data} (storable : data.Storable) :
    StorableHere { node with data := some data } :=
  ⟨⟨here.formed.position, by simpa using storable.formed, here.formed.rest⟩,
    ⟨here.canonical.kind, by simpa using storable.canonical, here.canonical.rest,
      here.canonical.names⟩⟩

theorem dataOrEmpty : node.dataOrEmpty.Storable := by
  rw [Node.dataOrEmpty]
  cases known : node.data with
  | none => exact Data.storable_empty
  | some data => exact ⟨here.formed.data data known, here.canonical.data data known⟩

theorem putProperty (key : String) {value : Json} (lossless : value.Lossless) :
    (node.putProperty key value).StorableHere :=
  here.withData (here.dataOrEmpty.withProperties (here.dataOrEmpty.properties.put key lossless))

theorem storable (leaf : node.childList = []) : node.Storable :=
  .intro here fun _ member => absurd (leaf ▸ member) List.not_mem_nil

end StorableHere

namespace Storable

variable {node : Node} (storable : node.Storable)

include storable

theorem here : node.StorableHere := by
  cases storable with
  | intro here below => exact here

theorem child : ∀ child ∈ node.childList, child.Storable := by
  cases storable with
  | intro here below => exact below

theorem withChildren {nodes : List Node} (each : ∀ child ∈ nodes, child.Storable) :
    Storable { node with children := some nodes } :=
  .intro (storable.here.of_same rfl rfl rfl rfl) each

theorem addChild {child : Node} (own : child.Storable) : (node.addChild child).Storable :=
  storable.withChildren
    (List.forall_mem_append.mpr ⟨storable.child, List.forall_mem_singleton.mpr own⟩)

theorem withPosition {position : Position} (formed : position.Formed) :
    (node.withPosition position).Storable :=
  .intro (storable.here.withPosition formed) storable.child

theorem withField {key : String} (other : key ∉ knownNames) {value : Json}
    (lossless : value.Lossless) : (node.withField key value).Storable :=
  .intro (storable.here.withField other lossless) storable.child

end Storable

end Node

end PageTree
