import PageTree.Proofs.Pass.Order
import PageTree.Proofs.Tree.Depth

/-!
The passes keep a tree storable and within its levels. A pass writes no more than plain attributes
into the hints of a node, for which there is always room, and it puts nothing below a node but what
stood there before and bare texts. What holds after one rewrite holds after the walk over the whole
tree, and after any number of walks.
-/

namespace PageTree

open Json (depthOfFields depthOfFields_le_iff)
open Node (Fits FitsHere Rewrite overChildren height_lt_of_mem)

theorem Json.depthOfFields_put_le {fields : Json.Fields} {bound : Nat}
    (depth : depthOfFields fields ≤ bound) (key : String) {value : Json} (plain : value.Plain) :
    depthOfFields (fields.put key value) ≤ bound := by
  refine depthOfFields_le_iff.mpr fun field member => ?_
  rcases Json.Fields.mem_put member with rfl | old
  · cases value with
    | null => exact Nat.zero_le _
    | bool b => exact Nat.zero_le _
    | str s => exact Nat.zero_le _
    | _ => exact plain.elim
  · exact depthOfFields_le_iff.mp depth field old

theorem Json.depthOfFields_remove_le {fields : Json.Fields} {bound : Nat}
    (depth : depthOfFields fields ≤ bound) (key : String) :
    depthOfFields (fields.remove key) ≤ bound :=
  depthOfFields_le_iff.mpr fun field member =>
    depthOfFields_le_iff.mp depth field (List.mem_of_mem_filter member)

namespace Data

variable {data : Data} {limit : Nat} (depth : data.toJson.depth ≤ limit + 2)

include depth

theorem depth_properties_le : depthOfFields (data.properties.getD []) ≤ limit := by
  cases known : data.properties with
  | none => exact Nat.zero_le _
  | some fields =>
    have inside := ((depth_le_iff data (limit + 1)).mp depth).2.1 (.obj fields) (by rw [known]; rfl)
    rw [Json.depth] at inside
    exact Nat.le_of_add_le_add_right inside

theorem depth_withProperties_le {fields : Json.Fields} (inside : depthOfFields fields ≤ limit) :
    (Data.toJson { data with properties := some fields }).depth ≤ limit + 2 := by
  obtain ⟨id, -, rest⟩ := (depth_le_iff data (limit + 1)).mp depth
  refine (depth_le_iff _ (limit + 1)).mpr ⟨id, ?_, rest⟩
  simpa [Json.depth] using inside

theorem depth_withoutId_le : (Data.toJson { data with id := none }).depth ≤ limit + 2 := by
  obtain ⟨-, properties, rest⟩ := (depth_le_iff data (limit + 1)).mp depth
  exact (depth_le_iff _ (limit + 1)).mpr ⟨by simp, properties, rest⟩

end Data

namespace Node

namespace FitsHere

variable {limit : Nat} {node : Node} (here : FitsHere (limit + 2) node)

include here

theorem of_same {other : Node} (kind : other.kind = node.kind)
    (position : other.position = node.position) (data : other.data = node.data)
    (rest : other.rest = node.rest) : FitsHere (limit + 2) other :=
  ⟨here.storable.of_same kind position data rest, here.room, data ▸ here.data, rest ▸ here.rest⟩

theorem withoutPosition : FitsHere (limit + 2) { node with position := none } :=
  ⟨here.storable.withoutPosition, here.room, here.data, here.rest⟩

theorem depth_dataOrEmpty_le : node.dataOrEmpty.toJson.depth ≤ limit + 2 := by
  rw [Node.dataOrEmpty]
  cases known : node.data with
  | none => exact Nat.le_add_left 1 _
  | some data => exact here.data data known

theorem withData {data : Data} (storable : data.Storable) (depth : data.toJson.depth ≤ limit + 2) :
    FitsHere (limit + 2) { node with data := some data } :=
  ⟨here.storable.withData storable, here.room, by simpa using depth, here.rest⟩

theorem putProperty (key : String) {value : Json} (plain : value.Plain) :
    FitsHere (limit + 2) (node.putProperty key value) := by
  have storable := here.storable.dataOrEmpty
  have depth := here.depth_dataOrEmpty_le
  have inside := Json.depthOfFields_put_le (Data.depth_properties_le depth) key plain
  exact here.withData (storable.withProperties (storable.properties.put key plain.lossless))
    (Data.depth_withProperties_le depth inside)

theorem clearIds : FitsHere (limit + 2) (HeadingPass.clearIds node) := by
  have storable := here.storable.dataOrEmpty
  have depth := here.depth_dataOrEmpty_le
  have inside := Json.depthOfFields_remove_le (Data.depth_properties_le depth) "id"
  exact here.withData (storable.withoutId.withProperties (storable.properties.remove "id"))
    (Data.depth_withProperties_le (Data.depth_withoutId_le depth) inside)

end FitsHere

theorem fits_iff {limit : Nat} {node : Node} : Fits limit node ↔ ∃ below, limit = below + 3 ∧
    FitsHere (below + 2) node ∧ ∀ child ∈ node.childList, Fits (below + 1) child := by
  constructor
  · intro fits
    cases fits with
    | @intro limit _ here each =>
      obtain ⟨below, rfl⟩ : ∃ below, limit = below + 1 := ⟨limit - 1, by have := here.room; omega⟩
      exact ⟨below, rfl, here, each⟩
  · intro parts
    obtain ⟨below, rfl, here, each⟩ := parts
    exact .intro here each

theorem fits_literal {limit : Nat} {other : Node} (place : Fits limit other) {kind : Kind}
    (own : Kind.ofTag kind.tag = kind) (value : String) : Fits limit (literal kind value) := by
  obtain ⟨below, rfl, -, -⟩ := fits_iff.mp place
  refine fits_iff.mpr ⟨below, rfl, ⟨storableHere_of_fields own rfl rfl rfl, ?_, ?_, ?_⟩, ?_⟩
  · exact Nat.le_add_left 2 below
  · simp [literal]
  · exact Nat.zero_le _
  · simp [literal, childList]

namespace Rewrite

theorem fits_walk {r : Rewrite}
    (keeps : ∀ limit node, Fits limit node → Fits limit (r.apply node)) {limit : Nat} {node : Node}
    (fits : Fits limit node) : Fits limit (r.walk node) := by
  induction node using height_induction generalizing limit with
  | step node ih =>
    obtain ⟨below, rfl, here, each⟩ := fits_iff.mp (keeps limit node fits)
    rw [r.walk_eq]
    refine fits_iff.mpr ⟨below, rfl, here.of_same rfl rfl rfl rfl, fun child member => ?_⟩
    rw [childList_overChildren] at member
    obtain ⟨source, stands, rfl⟩ := List.mem_map.mp member
    have lower := height_lt_of_mem stands
    have bound := r.height_le node
    exact ih source (by omega) (each source stands)

end Rewrite

end Node

theorem HeadingPass.fits_normalize {limit : Nat} {node : Node} (fits : Fits limit node) :
    Fits limit (normalize node).1 := by
  obtain ⟨below, rfl, here, each⟩ := Node.fits_iff.mp fits
  refine Node.fits_iff.mpr ⟨below, rfl, ?_⟩
  unfold normalize
  split
  · next reference others found =>
    have cleared : FitsHere (below + 2) { clearIds node with children := some others } :=
      here.clearIds.of_same rfl rfl rfl rfl
    have plain : (classValue reference.label).Plain := by
      unfold classValue
      split <;> trivial
    refine ⟨cleared.putProperty "class" plain, fun child member => each child ?_⟩
    rw [childList_of_leadingReference? found]
    exact List.mem_cons_of_mem _ member
  · exact ⟨here.clearIds, each⟩

theorem LinkPass.fits_process (context : PageContext) {limit : Nat} {node : Node}
    (fits : Fits limit node) : Fits limit (process context node).1 := by
  obtain ⟨below, rfl, here, each⟩ := Node.fits_iff.mp fits
  refine Node.fits_iff.mpr ⟨below, rfl, ?_⟩
  rcases process_cases context node.url with keeps | marks | ⟨relative, sets⟩
  · rw [keeps node rfl]
    exact ⟨here, each⟩
  · rw [marks node rfl]
    exact ⟨here.putProperty "rel" trivial, each⟩
  · rw [sets node rfl]
    exact ⟨here.of_same rfl rfl rfl rfl, each⟩

namespace EntityPass

theorem fits_rebuildChild {limit : Nat} {child piece : Node} (fits : Fits limit child)
    (member : piece ∈ rebuildChild child) : Fits limit piece := by
  rw [rebuildChild] at member
  split at member
  · obtain ⟨text, rfl | rfl⟩ := bare_of_mem_splitText member
    · exact Node.fits_literal fits rfl text
    · exact Node.fits_literal fits rfl text
  · obtain rfl := List.mem_singleton.mp member
    obtain ⟨below, rfl, here, each⟩ := Node.fits_iff.mp fits
    exact Node.fits_iff.mpr ⟨below, rfl, here.withoutPosition, each⟩

theorem fits_encode {limit : Nat} {node : Node} (fits : Fits limit node) :
    Fits limit (encode node).1 := by
  unfold encode
  split
  · exact fits
  · next nodes children =>
    split
    · obtain ⟨below, rfl, here, each⟩ := Node.fits_iff.mp fits
      refine Node.fits_iff.mpr ⟨below, rfl, here.of_same rfl rfl rfl rfl, fun piece member => ?_⟩
      obtain ⟨child, inNodes, inside⟩ :=
        List.mem_flatMap.mp (show piece ∈ nodes.flatMap rebuildChild from member)
      have inList : child ∈ node.childList := by simpa [Node.childList, children] using inNodes
      exact fits_rebuildChild (each child inList) inside
    · exact fits

end EntityPass

namespace Pass

theorem fits_rewriteNode (context : PageContext) (pass : Pass) {limit : Nat} {node : Node}
    (fits : Fits limit node) : Fits limit (pass.rewriteNode context node) := by
  cases pass with
  | heading => exact HeadingPass.fits_normalize fits
  | link => exact LinkPass.fits_process context fits
  | entity => exact EntityPass.fits_encode fits

theorem fits_apply (context : PageContext) (pass : Pass) {limit : Nat} {tree : Node}
    (fits : Fits limit tree) : Fits limit (pass.apply context tree).1 := by
  rw [fst_apply]
  refine Rewrite.fits_walk (fun limit node fits => ?_) fits
  simp only [rewrite, Rewrite.ofKind]
  split
  · exact pass.fits_rewriteNode context fits
  · exact fits

theorem kind_apply (context : PageContext) (pass : Pass) (tree : Node) :
    (pass.apply context tree).1.kind = tree.kind := by
  rw [fst_apply]
  exact (pass.discreet_rewrite context).walk.kind tree

/-- Applies passes one after the other, each with a context of its own. -/
def applyAll (steps : List (Pass × PageContext)) (tree : Node) : Node :=
  steps.foldl (fun tree step => (step.1.apply step.2 tree).1) tree

theorem fits_applyAll (steps : List (Pass × PageContext)) {limit : Nat} {tree : Node}
    (fits : Fits limit tree) : Fits limit (applyAll steps tree) := by
  induction steps generalizing tree with
  | nil => exact fits
  | cons step steps ih => exact ih (step.1.fits_apply step.2 fits)

theorem kind_applyAll (steps : List (Pass × PageContext)) (tree : Node) :
    (applyAll steps tree).kind = tree.kind := by
  induction steps generalizing tree with
  | nil => rfl
  | cons step steps ih => exact (ih _).trans (step.1.kind_apply step.2 tree)

end Pass

end PageTree
