import Mathlib.Data.List.Forall2
import PageTree.Proofs.Pass.Order
import PageTree.Proofs.Typography.Tokens

/-!
What the entity pass does to a tree. A paragraph with an entity in one of its own texts gets a new
list of children: such a text becomes a row of bare texts and bare markup that spell it without
loss, and every other child loses its position. Nothing else in the tree changes.
-/

namespace PageTree

open Entity (Contains occursIn_iff tokenize tokenize_induction not_contains_nil)
open Node (overChildren Rewrite)

namespace EntityPass

def HasEntity (node : Node) : Prop :=
  node.kind = .text ∧ ∃ value, node.value = some value ∧ Contains value.toList

/-- A paragraph with an entity in one of its own texts. -/
def Qualifies (node : Node) : Prop :=
  node.kind = .paragraph ∧ ∃ child ∈ node.childList, HasEntity child

/-- A part of a text that is divided. -/
inductive Piece where
  | plain (text : String)
  | entity (found : Entity)

namespace Piece

def node : Piece → Node
  | plain text => Node.text text
  | entity found => Node.html found.encoded

def source : Piece → List Char
  | plain text => text.toList
  | entity found => found.literal

/-- A plain piece is not empty and contains no entity, and an entity is one of the table. -/
def Sound : Piece → Prop
  | plain text => text ≠ "" ∧ ¬ Contains text.toList
  | entity found => found ∈ Entity.table

/-- Two pieces that may stand side by side. -/
def Apart : Piece → Piece → Prop
  | plain _, plain _ => False
  | _, _ => True

end Piece

/-- The nodes that a text is divided into, and the text that they spell. -/
def Spells (nodes : List Node) (value : String) : Prop :=
  ∃ pieces : List Piece, nodes = pieces.map Piece.node ∧ (∀ piece ∈ pieces, piece.Sound) ∧
    pieces.IsChain Piece.Apart ∧ pieces.flatMap Piece.source = value.toList

mutual

/-- A tree and what the pass makes of it. -/
inductive Encodes : Node → Node → Prop
  | leaf {node : Node} (noChildren : node.children = none) : Encodes node node
  | kept {node : Node} {nodes news : List Node} (children : node.children = some nodes)
      (plain : ¬ Qualifies node) (each : List.Forall₂ Encodes nodes news) :
      Encodes node { node with children := some news }
  | rebuilt {node : Node} {groups : List (List Node)} (qualifies : Qualifies node)
      (each : List.Forall₂ EncodesChild node.childList groups) :
      Encodes node { node with children := some groups.flatten }

/-- A child of a paragraph that is rebuilt, and the children that take its place. -/
inductive EncodesChild : Node → List Node → Prop
  | divided {child : Node} {value : String} {nodes : List Node} (hasEntity : HasEntity child)
      (known : child.value = some value) (spells : Spells nodes value) : EncodesChild child nodes
  | carried {child new : Node} (plain : ¬ HasEntity child)
      (encodes : Encodes { child with position := none } new) : EncodesChild child [new]

end

theorem hasEntity_iff {node : Node} : hasEntity node = true ↔ HasEntity node := by
  rw [hasEntity, Bool.and_eq_true, decide_eq_true_iff, HasEntity]
  cases known : node.value with
  | none => simp
  | some value => simp [occursIn_iff]

theorem any_hasEntity_iff {node : Node} {nodes : List Node}
    (children : node.children = some nodes) :
    nodes.any hasEntity = true ↔ ∃ child ∈ node.childList, HasEntity child := by
  have list : node.childList = nodes := by rw [Node.childList, children, Option.getD_some]
  rw [list, List.any_eq_true]
  simp only [hasEntity_iff]

def piecesOf (token : Entity.Token) : List Piece :=
  (if token.plain = [] then [] else [.plain (String.ofList token.plain)])
    ++ (token.entity.map Piece.entity).toList

theorem map_node_piecesOf (token : Entity.Token) :
    (piecesOf token).map Piece.node = ofToken token := by
  rw [piecesOf, ofToken, List.map_append]
  congr 1
  · split <;> rfl
  · cases token.entity <;> rfl

theorem splitText_eq (value : String) :
    splitText value = ((tokenize value.toList).flatMap piecesOf).map Piece.node := by
  rw [splitText, List.map_flatMap]
  exact List.flatMap_congr fun token _ => (map_node_piecesOf token).symm

theorem source_piecesOf (token : Entity.Token) : (piecesOf token).flatMap Piece.source =
    token.plain ++ (token.entity.map Entity.literal).getD [] := by
  obtain ⟨plain, entity⟩ := token
  by_cases empty : plain = [] <;> cases entity <;> simp [piecesOf, empty, Piece.source]

theorem sound_plain {plain : List Char} (notEmpty : plain ≠ []) (free : ¬ Contains plain) :
    (Piece.plain (String.ofList plain)).Sound := by
  constructor
  · intro same
    have chars := congrArg String.toList same
    rw [String.toList_ofList] at chars
    exact notEmpty chars
  · rw [String.toList_ofList]
    exact free

theorem sound_piecesOf (token : Entity.Token) (free : ¬ Contains token.plain)
    (inTable : ∀ entity ∈ token.entity, entity ∈ Entity.table) :
    ∀ piece ∈ piecesOf token, piece.Sound := by
  intro piece member
  rw [piecesOf, List.mem_append] at member
  rcases member with plain | entity
  · split at plain
    · cases plain
    · next notEmpty =>
      rw [List.mem_singleton.mp plain]
      exact sound_plain notEmpty free
  · obtain ⟨found, known, rfl⟩ := Option.map_eq_some_iff.mp (Option.mem_toList.mp entity)
    exact inTable found known

theorem isChain_entity (found : Entity) {pieces : List Piece} (apart : pieces.IsChain Piece.Apart) :
    (Piece.entity found :: pieces).IsChain Piece.Apart := by
  cases pieces with
  | nil => exact List.IsChain.singleton _
  | cons piece pieces => exact List.isChain_cons_cons.mpr ⟨trivial, apart⟩

theorem isChain_piecesOf {plain : List Char} {found : Entity} {pieces : List Piece}
    (apart : pieces.IsChain Piece.Apart) :
    (piecesOf ⟨plain, some found⟩ ++ pieces).IsChain Piece.Apart := by
  have rest := isChain_entity found apart
  by_cases empty : plain = []
  · simpa [piecesOf, empty] using rest
  · simp only [piecesOf, if_neg empty]
    exact List.isChain_cons_cons.mpr ⟨trivial, rest⟩

theorem spells_splitText (value : String) : Spells (splitText value) value := by
  refine ⟨(tokenize value.toList).flatMap piecesOf, splitText_eq value, ?_⟩
  refine tokenize_induction (motive := fun cs tokens =>
    (∀ piece ∈ tokens.flatMap piecesOf, piece.Sound) ∧
      (tokens.flatMap piecesOf).IsChain Piece.Apart ∧
      (tokens.flatMap piecesOf).flatMap Piece.source = cs) ?_ ?_ ?_ value.toList
  · exact ⟨by simp, List.IsChain.nil, rfl⟩
  · intro cs notEmpty free
    have sound := sound_piecesOf ⟨cs, none⟩ free (by simp)
    have source := source_piecesOf ⟨cs, none⟩
    rw [List.flatMap_singleton]
    refine ⟨sound, ?_, by simpa using source⟩
    simp only [piecesOf, if_neg notEmpty]
    exact List.IsChain.singleton _
  · intro plain found rest tokens free inTable below
    obtain ⟨sound, apart, source⟩ := below
    have first := sound_piecesOf ⟨plain, some found⟩ free (by simpa using inTable)
    rw [List.flatMap_cons]
    refine ⟨List.forall_mem_append.mpr ⟨first, sound⟩, isChain_piecesOf apart, ?_⟩
    rw [List.flatMap_append, source, source_piecesOf, Option.map_some, Option.getD_some,
      List.append_assoc]

def rewrite : Rewrite := Pass.rewrite {} .entity

theorem encode_of_not_qualifies {node : Node} (paragraph : node.kind = .paragraph)
    (plain : ¬ Qualifies node) : encode node = (node, false) := by
  cases children : node.children with
  | none => simp only [encode, children]
  | some nodes =>
    have none : ¬ nodes.any hasEntity = true := by
      intro some
      exact plain ⟨paragraph, (any_hasEntity_iff children).mp some⟩
    simp only [encode, children, if_neg none]

theorem apply_of_not_qualifies {node : Node} (plain : ¬ Qualifies node) :
    rewrite.apply node = node := by
  by_cases paragraph : node.kind = .paragraph
  · have same : rewrite.apply node = (encode node).1 := if_pos paragraph
    rw [same, encode_of_not_qualifies paragraph plain]
  · exact if_neg paragraph

theorem encode_of_qualifies {node : Node} (qualifies : Qualifies node) :
    encode node = ({ node with children := some (node.childList.flatMap rebuildChild) }, true) := by
  obtain ⟨-, inside⟩ := qualifies
  cases children : node.children with
  | none =>
    obtain ⟨child, member, -⟩ := inside
    simp [Node.childList, children] at member
  | some nodes =>
    have list : node.childList = nodes := by rw [Node.childList, children, Option.getD_some]
    have some := (any_hasEntity_iff children).mpr inside
    simp only [encode, children, if_pos some, list]

theorem apply_of_qualifies {node : Node} (qualifies : Qualifies node) :
    rewrite.apply node = { node with children := some (node.childList.flatMap rebuildChild) } := by
  have same : rewrite.apply node = (encode node).1 := if_pos qualifies.1
  rw [same, encode_of_qualifies qualifies]

theorem encodesChild_walk {child : Node}
    (ih : Encodes { child with position := none } (rewrite.walk { child with position := none })) :
    EncodesChild child ((rebuildChild child).map rewrite.walk) := by
  by_cases found : HasEntity child
  · obtain ⟨value, known, -⟩ := found.2
    have discreet := (Pass.discreet_rewrite {} .entity).walk
    have same : (rebuildChild child).map rewrite.walk = splitText value := by
      rw [rebuildChild, if_pos (hasEntity_iff.mpr found), known, Option.getD_some]
      exact map_splitText discreet value
    rw [same]
    exact .divided found known (spells_splitText value)
  · rw [rebuildChild, if_neg (mt hasEntity_iff.mp found), List.map_singleton]
    exact .carried found ih

theorem encodes_walk (node : Node) : Encodes node (rewrite.walk node) := by
  induction node using Node.height_induction with
  | step node ih =>
    by_cases qualifies : Qualifies node
    · obtain ⟨groups, same⟩ : ∃ groups, groups = node.childList.map fun child =>
          (rebuildChild child).map rewrite.walk := ⟨_, rfl⟩
      have each : List.Forall₂ EncodesChild node.childList groups := by
        rw [same, List.forall₂_map_right_iff, List.forall₂_same]
        intro child member
        have height : ({ child with position := none } : Node).height = child.height := by
          rw [Node.height_eq, Node.height_eq child]
          rfl
        have lower := Node.height_lt_of_mem member
        exact encodesChild_walk (ih _ (by omega))
      have flat : (node.childList.flatMap rebuildChild).map rewrite.walk = groups.flatten := by
        rw [same, List.map_flatMap, List.flatMap_def]
      have new : rewrite.walk node = { node with children := some groups.flatten } := by
        rw [rewrite.walk_eq, apply_of_qualifies qualifies, overChildren, Option.map_some, flat]
      rw [new]
      exact .rebuilt qualifies each
    · cases children : node.children with
      | none =>
        rw [rewrite.walk_eq, apply_of_not_qualifies qualifies, Node.overChildren_of_none _ children]
        exact .leaf children
      | some nodes =>
        have each : List.Forall₂ Encodes nodes (nodes.map rewrite.walk) := by
          rw [List.forall₂_map_right_iff, List.forall₂_same]
          intro child member
          have inList : child ∈ node.childList := by simpa [Node.childList, children] using member
          exact ih child (Node.height_lt_of_mem inList)
        rw [rewrite.walk_eq, apply_of_not_qualifies qualifies, overChildren, children,
          Option.map_some]
        exact .kept children qualifies each

/-- The pass loses no text and changes nothing but the children of the paragraphs it rebuilds. -/
theorem encodes_apply (tree : Node) : Encodes tree (apply tree).1 := by
  have walk : (apply tree).1 = rewrite.walk tree := Pass.fst_apply {} .entity tree
  rw [walk]
  exact encodes_walk tree

end EntityPass

end PageTree
