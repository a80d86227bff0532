import PageTree.Proofs.Json.ReadNesting
import PageTree.Proofs.Tree.Decoded
import PageTree.Proofs.Tree.Storable

/-!
How deeply a tree nests when it is written. A tree nests no deeper than what it was read from. A tree
fits into a number of levels when each of its nodes, in the place where it stands, leaves two levels
for hints, whether it has them or not; every tree fits into two levels more than it takes.
-/

namespace PageTree

open Json (Written depthOfFields depthOfItems depthOfFields_le_iff depthOfItems_le_iff
  depthOfFields_append depth_le_of_value? depthOfFields_putAll_le)
open Json.Written (unnamed without fieldsOf fieldsOf_eq_some_iff mem_without AllNumerals
  depthOfMembers depth_le_depthOfMembers depth_le_depthOfItems mem_of_field? properties?_eq_some_iff
  value? properties? exists_of_optional)

namespace Json.Written

theorem depth_le_of_field {fields : List (String × Written)} {name : String} {value : Written}
    (member : (name, value) ∈ fields) : value.depth ≤ depthOfMembers (unnamed fields) :=
  depth_le_depthOfMembers
    (List.mem_map_of_mem (f := fun field : String × Written => (some field.1, field.2)) member)

theorem depthOfFields_le_of_fieldsOf {limit : Nat} {members : Members} {result : Json.Fields}
    (spelled : ∀ member ∈ members, AllNumerals Numeral.Spelled member.2)
    (done : fieldsOf (value? limit) members [] = some result) :
    depthOfFields result ≤ depthOfMembers members := by
  obtain ⟨pairs, each, rfl⟩ := fieldsOf_eq_some_iff.mp done
  exact depthOfFields_putAll_le each fun member inside value read =>
    depth_le_of_value? (spelled member inside) read

theorem depthOfMembers_le_iff {members : Members} {bound : Nat} :
    depthOfMembers members ≤ bound ↔ ∀ member ∈ members, member.2.depth ≤ bound := by
  induction members with
  | nil => simp [depthOfMembers]
  | cons member members ih => rw [depthOfMembers, Nat.max_le, ih, List.forall_mem_cons]

theorem depthOfMembers_without_le (names : List String) (fields : List (String × Written)) :
    depthOfMembers (without names fields) ≤ depthOfMembers (unnamed fields) := by
  refine depthOfMembers_le_iff.mpr fun member inside => ?_
  obtain ⟨field, stands, -, rfl⟩ := mem_without.mp inside
  exact depth_le_of_field stands

end Json.Written

open Json.Written (depth_le_of_field depthOfFields_le_of_fieldsOf depthOfMembers_without_le)

theorem Point.one_le_depth {written : Written} {point : Point}
    (read : ofWritten? written = some point) : 1 ≤ written.depth := by
  obtain ⟨_, _, _, -, ⟨_, rfl, -⟩ | rfl⟩ := reads_of_ofWritten? read
  · exact Nat.le_add_left 1 _
  · exact Nat.le_add_left 1 _

theorem Position.depth_le_of_ofWritten? {limit : Nat} {written : Written} {position : Position}
    (read : ofWritten? limit written = some position) : position.toJson.depth ≤ written.depth := by
  obtain ⟨start, finish, readStart, -, form⟩ := reads_of_ofWritten? read
  have inside := Point.one_le_depth readStart
  rw [depth_toJson]
  rcases form with ⟨fields, rfl, hasStart, -⟩ | rfl
  · have stands := depth_le_of_field (mem_of_field? hasStart)
    rw [Json.Written.depth]
    omega
  · have stands : start.depth ≤ Json.Written.depthOfItems [start, finish] :=
      depth_le_depthOfItems List.mem_cons_self
    rw [Json.Written.depth]
    omega

theorem Data.depth_le_of_ofWritten? {limit : Nat} {written : Written} {data : Data}
    (spelled : AllNumerals Json.Numeral.Spelled written)
    (read : ofWritten? limit written = some data) : data.toJson.depth ≤ written.depth := by
  obtain ⟨below, fields, rfl, rfl, reads⟩ := ofWritten?_eq_some_iff.mp read
  have each := spelled.field
  rw [Json.Written.depth, depth_le_iff]
  refine ⟨?_, ?_, ?_⟩
  · intro id known
    obtain ⟨written, member, -, read⟩ := reads.id.value known
    exact Nat.le_trans (depth_le_of_value? (each _ member) read) (depth_le_of_field member)
  · intro json known
    obtain ⟨properties, own, rfl⟩ := Option.map_eq_some_iff.mp known
    obtain ⟨written, member, -, read⟩ := reads.properties.value own
    obtain ⟨low, members, -, rfl, done⟩ := properties?_eq_some_iff.mp read
    have inner := depthOfFields_le_of_fieldsOf (each _ member).member done
    have outer := depth_le_of_field member
    rw [Json.Written.depth] at outer
    rw [Json.depth]
    omega
  · exact Nat.le_trans (depthOfFields_le_of_fieldsOf
      (AllNumerals.without fun field member _ => each field member) reads.rest)
      (depthOfMembers_without_le _ _)

namespace Node

theorem depth_text {value : Option String} {bound : Nat} :
    ∀ json ∈ value.map Json.str, json.depth ≤ bound := by
  intro json known
  obtain ⟨s, -, rfl⟩ := Option.map_eq_some_iff.mp known
  exact Nat.zero_le _

theorem depth_le_of_ofWritten? {limit : Nat} {written : Written}
    (spelled : AllNumerals Json.Numeral.Spelled written) {node : Node}
    (read : ofWritten? limit written = some node) : node.toJson.depth ≤ written.depth := by
  refine read_induction (motive := fun written node =>
    AllNumerals Json.Numeral.Spelled written → node.toJson.depth ≤ written.depth) ?_ read spelled
  intro limit fields node reads children spelled
  have each := spelled.field
  rw [Json.Written.depth, depth_le_iff]
  refine ⟨?_, depth_text, depth_text, depth_text, ?_, ?_, ?_⟩
  · intro json known
    obtain ⟨nodes, own, rfl⟩ := Option.map_eq_some_iff.mp known
    obtain ⟨items, stands, related⟩ := children nodes own
    have member := mem_of_field? stands
    have outer := depth_le_of_field member
    have inner : depthOfItems (listToJson nodes) ≤ Json.Written.depthOfItems items := by
      rw [listToJson_eq_map, depthOfItems_le_iff]
      intro json inside
      obtain ⟨child, inNodes, rfl⟩ := List.mem_map.mp inside
      obtain ⟨item, inItems, le⟩ := exists_of_mem_forall₂ related inNodes
      exact Nat.le_trans (le ((each _ member).item item inItems)) (depth_le_depthOfItems inItems)
    rw [Json.Written.depth] at outer
    rw [Json.depth]
    omega
  · intro json known
    obtain ⟨position, own, rfl⟩ := Option.map_eq_some_iff.mp known
    obtain ⟨written, member, -, read⟩ := reads.position.value own
    exact Nat.le_trans (Position.depth_le_of_ofWritten? read) (depth_le_of_field member)
  · intro json known
    obtain ⟨data, own, rfl⟩ := Option.map_eq_some_iff.mp known
    obtain ⟨written, member, -, read⟩ := reads.data.value own
    exact Nat.le_trans (Data.depth_le_of_ofWritten? (each _ member) read) (depth_le_of_field member)
  · exact Nat.le_trans (depthOfFields_le_of_fieldsOf
      (AllNumerals.without fun field member _ => each field member) reads.rest)
      (depthOfMembers_without_le _ _)

structure FitsHere (limit : Nat) (node : Node) : Prop where
  storable : node.StorableHere
  room : 2 ≤ limit
  data : ∀ data ∈ node.data, data.toJson.depth ≤ limit
  rest : depthOfFields node.rest ≤ limit

/-- A storable tree that fits into the given number of levels. A list of children takes one level
and each child the next. -/
inductive Fits : Nat → Node → Prop
  | intro {limit : Nat} {node : Node} (here : FitsHere (limit + 1) node)
      (below : ∀ child ∈ node.childList, Fits limit child) : Fits (limit + 2) node

theorem Fits.storable {limit : Nat} {node : Node} (fits : Fits limit node) : node.Storable := by
  induction fits with
  | intro here below ih => exact .intro here.storable ih

theorem Fits.depth_le {limit : Nat} {node : Node} (fits : Fits limit node) :
    node.toJson.depth ≤ limit := by
  induction fits with
  | @intro limit node here below ih =>
    rw [depth_le_iff]
    refine ⟨?_, depth_text, depth_text, depth_text, ?_, ?_, here.rest⟩
    · intro json known
      obtain ⟨nodes, own, rfl⟩ := Option.map_eq_some_iff.mp known
      have list : node.childList = nodes := by rw [childList, own, Option.getD_some]
      rw [Json.depth, Nat.add_le_add_iff_right, listToJson_eq_map, depthOfItems_le_iff]
      intro json inside
      obtain ⟨child, inNodes, rfl⟩ := List.mem_map.mp inside
      exact ih child (list ▸ inNodes)
    · intro json known
      obtain ⟨position, -, rfl⟩ := Option.map_eq_some_iff.mp known
      rw [Position.depth_toJson]
      exact here.room
    · intro json known
      obtain ⟨data, own, rfl⟩ := Option.map_eq_some_iff.mp known
      exact here.data data own

/-- Every storable tree fits into two levels more than it takes. -/
theorem Storable.fits {node : Node} (storable : node.Storable) :
    ∀ {limit : Nat}, node.toJson.depth ≤ limit → Fits (limit + 2) node := by
  induction storable with
  | @intro node here below ih =>
    intro limit depth
    obtain ⟨limit, rfl⟩ : ∃ below, limit = below + 1 := by
      have positive : 0 < node.toJson.depth := by rw [toJson_eq, Json.depth]; omega
      exact ⟨limit - 1, by omega⟩
    obtain ⟨children, -, -, -, -, data, rest⟩ := (depth_le_iff node limit).mp depth
    refine .intro ⟨here, by omega, ?_, by omega⟩ ?_
    · intro hints known
      have fits := data hints.toJson (by rw [known]; rfl)
      omega
    · intro child member
      have inside : child ∈ node.children.getD [] := member
      cases known : node.children with
      | none => exact absurd inside (by simp [known])
      | some nodes =>
        rw [known, Option.getD_some] at inside
        have list := children _ (by rw [known]; rfl)
        rw [Json.depth, listToJson_eq_map] at list
        obtain ⟨limit, rfl⟩ : ∃ below, limit = below + 1 := ⟨limit - 1, by omega⟩
        have fits := depthOfItems_le_iff.mp (Nat.le_of_add_le_add_right list) child.toJson
          (List.mem_map_of_mem inside)
        exact ih child member fits

end Node

end PageTree
