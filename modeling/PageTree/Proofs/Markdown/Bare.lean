import PageTree.Markdown.TreeBuilder
import PageTree.Proofs.Tree.Induction

/-!
Trees without positions, and what the operations of the tree builder do apart from positions. The
places of events reach no other field of a node, so that a builder without positions tells all else.
-/

namespace PageTree

namespace Node

mutual

/-- The tree without positions. -/
def bare : Node → Node
  | ⟨kind, children, value, url, label, _, data, rest⟩ =>
    ⟨kind, bareChildren children, value, url, label, none, data, rest⟩

def bareChildren : Option (List Node) → Option (List Node)
  | none => none
  | some nodes => some (bareList nodes)

def bareList : List Node → List Node
  | [] => []
  | node :: nodes => node.bare :: bareList nodes

end

theorem bareList_eq_map (nodes : List Node) : bareList nodes = nodes.map bare := by
  induction nodes with
  | nil => rfl
  | cons node nodes ih => rw [bareList, ih, List.map_cons]

theorem bareChildren_eq_map (children : Option (List Node)) :
    bareChildren children = children.map (List.map bare) := by
  cases children with
  | none => rfl
  | some nodes => rw [bareChildren, bareList_eq_map, Option.map_some]

theorem bare_eq (node : Node) : node.bare =
    { node with children := node.children.map (List.map bare), position := none } := by
  obtain ⟨kind, children, value, url, label, position, data, rest⟩ := node
  rw [bare, bareChildren_eq_map]

@[simp] theorem kind_bare (node : Node) : node.bare.kind = node.kind := by rw [bare_eq]

@[simp] theorem value_bare (node : Node) : node.bare.value = node.value := by rw [bare_eq]

@[simp] theorem position_bare (node : Node) : node.bare.position = none := by rw [bare_eq]

@[simp] theorem children_bare (node : Node) :
    node.bare.children = node.children.map (List.map bare) := by rw [bare_eq]

@[simp] theorem childList_bare (node : Node) : node.bare.childList = node.childList.map bare := by
  rw [childList, childList, children_bare]
  cases node.children <;> rfl

theorem bare_eq_self {node : Node} (place : node.position = none) (leaf : node.childList = []) :
    node.bare = node := by
  obtain ⟨kind, children, value, url, label, position, data, rest⟩ := node
  obtain rfl : position = none := place
  cases children with
  | none => rfl
  | some nodes =>
    obtain rfl : nodes = [] := leaf
    rfl

@[simp] theorem bare_withPosition (node : Node) (position : Position) :
    (node.withPosition position).bare = node.bare := by
  rw [bare_eq, bare_eq node, withPosition]

@[simp] theorem bare_withField (node : Node) (key : String) (value : Json) :
    (node.withField key value).bare = node.bare.withField key value := by
  rw [bare_eq, bare_eq node, withField, withField]

theorem bare_withChildren (node : Node) (nodes : List Node) :
    bare { node with children := some nodes } =
      { node.bare with children := some (nodes.map bare) } := by
  rw [bare_eq, bare_eq node, Option.map_some]

theorem textContent_eq (node : Node) :
    node.textContent = node.value.getD "" ++ textOfList node.childList := by
  obtain ⟨kind, children, value, url, label, position, data, rest⟩ := node
  cases children <;> rw [textContent, textOfChildren] <;> rfl

@[simp] theorem textContent_bare (node : Node) : node.bare.textContent = node.textContent := by
  induction node using child_induction with
  | step node ih =>
    have list : ∀ nodes : List Node, (∀ child ∈ nodes, child.bare.textContent = child.textContent) →
        textOfList (nodes.map bare) = textOfList nodes := by
      intro nodes each
      induction nodes with
      | nil => rfl
      | cons first nodes rest =>
        obtain ⟨own, others⟩ := List.forall_mem_cons.mp each
        rw [List.map_cons, textOfList, textOfList, own, rest others]
    rw [textContent_eq, textContent_eq node, value_bare, childList_bare, list _ ih]

end Node

end PageTree

namespace PageTree.Markdown

open Node (bare)

namespace TreeBuilder

/-- The builder without positions. -/
def bare (b : TreeBuilder) : TreeBuilder :=
  { index := ⟨[]⟩, stack := b.stack.map Node.bare, roots := b.roots.map Node.bare,
    implicit := b.implicit }

def push (b : TreeBuilder) (node : Node) : TreeBuilder := { b with stack := node :: b.stack }

def content (b : TreeBuilder) : List Node :=
  match b.stack with
  | top :: _ => top.childList
  | [] => b.roots

def withContent (b : TreeBuilder) (nodes : List Node) : TreeBuilder :=
  match b.stack with
  | top :: outer => { b with stack := { top with children := some nodes } :: outer }
  | [] => { b with roots := nodes }

def mark (b : TreeBuilder) (tasks : List Bool) : TreeBuilder :=
  { b with stack := tasks.foldl (fun stack state => checkItem state stack) b.stack }

theorem addNode_eq (b : TreeBuilder) (node : Node) :
    b.addNode node = b.withContent (b.content ++ [node]) := by
  obtain ⟨index, stack, roots, implicit⟩ := b
  cases stack <;> rfl

@[simp] theorem bare_place (b : TreeBuilder) (node : Node) (span : Span) :
    (b.place node span).bare = node.bare := Node.bare_withPosition node _

@[simp] theorem content_bare (b : TreeBuilder) : b.bare.content = b.content.map Node.bare := by
  obtain ⟨index, stack, roots, implicit⟩ := b
  cases stack with
  | nil => rfl
  | cons top outer => exact Node.childList_bare top

theorem bare_withContent (b : TreeBuilder) (nodes : List Node) :
    (b.withContent nodes).bare = b.bare.withContent (nodes.map Node.bare) := by
  obtain ⟨index, stack, roots, implicit⟩ := b
  cases stack with
  | nil => rfl
  | cons top outer => simp [withContent, bare, Node.bare_withChildren]

theorem bare_addNode (b : TreeBuilder) (node : Node) :
    (b.addNode node).bare = b.bare.addNode node.bare := by
  rw [addNode_eq, bare_withContent, addNode_eq, content_bare, List.map_append, List.map_singleton]

theorem bare_addLeaf (b : TreeBuilder) (node : Node) (span : Span) :
    (b.addLeaf node span).bare = b.bare.addNode node.bare := by
  rw [addLeaf, bare_addNode, bare_place]

theorem bare_openNode (b : TreeBuilder) (node : Node) (span : Span) :
    (b.openNode node span).bare = b.bare.push node.bare := by
  simp [openNode, bare, push]

theorem bare_fitToChildren (node : Node) : (fitToChildren node).bare = node.bare := by
  unfold fitToChildren
  split
  · exact Node.bare_withPosition node _
  · rfl

theorem map_bare_joinText (text : Node) (nodes : List Node) :
    (joinText text nodes).map Node.bare = joinText text.bare (nodes.map Node.bare) := by
  induction nodes with
  | nil => rfl
  | cons node rest ih =>
    cases rest with
    | nil =>
      simp only [joinText, List.map_cons, List.map_nil, Node.kind_bare, Node.value_bare]
      split
      · simp [Node.bare_eq]
      · rfl
    | cons second rest => exact congrArg (node.bare :: ·) ih

theorem map_bare_checkItem (state : Bool) (nodes : List Node) :
    (checkItem state nodes).map Node.bare = checkItem state (nodes.map Node.bare) := by
  induction nodes with
  | nil => rfl
  | cons node outer ih =>
    simp only [checkItem, List.map_cons, Node.kind_bare]
    split
    · simp
    · simp [ih]

theorem bare_close (b : TreeBuilder) (kind : TagKind) : (b.close kind).bare = b.bare.close kind := by
  obtain ⟨index, stack, roots, implicit⟩ := b
  cases stack with
  | nil => rfl
  | cons node outer =>
    have closed : (if kind = TagKind.image then describeImage node else node).bare =
        if kind = TagKind.image then describeImage node.bare else node.bare := by
      split
      · rw [describeImage, Node.bare_withField, describeImage, Node.textContent_bare,
          Node.bare_eq, Node.bare_eq node]
        rfl
      · rfl
    simp only [close, bare, List.map_cons, ← closed]
    exact bare_addNode _ _

theorem bare_closeImplicit (b : TreeBuilder) : b.closeImplicit.bare = b.bare.closeImplicit := by
  obtain ⟨index, stack, roots, implicit⟩ := b
  cases implicit with
  | none => rfl
  | some depth =>
    cases stack with
    | nil => rfl
    | cons top outer =>
      have fit : fitToChildren top.bare = top.bare := by
        rw [fitToChildren, Node.position_bare]
      simp only [closeImplicit, bare, List.map_cons, List.length_map, fit]
      split
      · exact (bare_addNode _ _).trans (by rw [bare_fitToChildren]; rfl)
      · rfl

theorem bare_openImplicit (b : TreeBuilder) (span : Span) : (b.openImplicit span).bare =
    if b.implicit.isNone && b.stack.head?.any fun top => top.kind = .listItem then
      { b.bare.push (Node.paragraph []) with implicit := some b.stack.length }
    else b.bare := by
  unfold openImplicit
  split
  · have opened := bare_openNode b (Node.paragraph []) span
    simp only [bare, push, TreeBuilder.mk.injEq] at opened ⊢
    exact ⟨opened.1, opened.2.1, opened.2.2.1, trivial⟩
  · rfl

end TreeBuilder

end PageTree.Markdown
