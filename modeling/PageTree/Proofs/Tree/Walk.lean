import PageTree.Proofs.Tree.Induction
import PageTree.Tree.Traversal

/-!
Walks without a bound on their depth. A rewrite of single nodes that makes no tree higher can be
carried through a whole tree, each node being rewritten before the children that the rewrite left.
A walk by kind that is deep enough does just this. Two walks become one when the second rewrite
commutes with the first walk carried to the children.
-/

namespace PageTree.Node

def overChildren (f : Node → Node) (node : Node) : Node :=
  { node with children := node.children.map (List.map f) }

theorem overChildren_of_none (f : Node → Node) {node : Node} (none : node.children = none) :
    overChildren f node = node := by
  cases node with
  | mk kind children value url label position data rest =>
    subst none
    rfl

theorem overChildren_id (node : Node) : overChildren id node = node := by
  cases node
  simp [overChildren]

theorem overChildren_congr {f g : Node → Node} {node : Node}
    (each : ∀ child ∈ node.childList, f child = g child) :
    overChildren f node = overChildren g node := by
  cases children : node.children with
  | none => simp [overChildren, children]
  | some nodes =>
    have same : nodes.map f = nodes.map g := by
      apply List.map_congr_left
      intro child member
      exact each child (by simpa [childList, children] using member)
    simp [overChildren, children, same]

theorem overChildren_overChildren (f g : Node → Node) (node : Node) :
    overChildren g (overChildren f node) = overChildren (g ∘ f) node := by
  cases children : node.children <;> simp [overChildren, children]

theorem childList_overChildren (f : Node → Node) (node : Node) :
    (overChildren f node).childList = node.childList.map f := by
  cases known : node.children <;> simp [overChildren, childList, known]

theorem heightOfList_le_iff {nodes : List Node} {bound : Nat} :
    heightOfList nodes ≤ bound ↔ ∀ node ∈ nodes, node.height ≤ bound := by
  induction nodes with
  | nil => simp [heightOfList]
  | cons node nodes ih => rw [heightOfList, Nat.max_le, ih, List.forall_mem_cons]

/-- A rewrite of one node that makes no tree higher. -/
structure Rewrite where
  apply : Node → Node
  height_le : ∀ node, (apply node).height ≤ node.height

namespace Rewrite

/-- Rewrites a node and then walks the children that the rewrite left. -/
def walk (r : Rewrite) (node : Node) : Node :=
  match _h : (r.apply node).children with
  | none => r.apply node
  | some nodes =>
    { r.apply node with children := some (nodes.attach.map fun child => r.walk child.1) }
termination_by node.height
decreasing_by
  have inList : child.1 ∈ (r.apply node).childList := by
    rw [childList, _h]
    exact child.2
  have lower := height_lt_of_mem inList
  have bound := r.height_le node
  omega

theorem walk_eq (r : Rewrite) (node : Node) :
    r.walk node = overChildren r.walk (r.apply node) := by
  rw [walk]
  split
  · next none => exact (overChildren_of_none _ none).symm
  · next nodes some => simp [overChildren, some]

def andThen (first second : Rewrite) : Rewrite where
  apply := fun node => second.apply (first.apply node)
  height_le := fun node =>
    Nat.le_trans (second.height_le (first.apply node)) (first.height_le node)

/-- Two walks are one if the second rewrite does not see what the first walk did to the children. -/
theorem walk_walk {first second : Rewrite}
    (apart : ∀ node, second.apply (overChildren first.walk node) =
      overChildren first.walk (second.apply node)) (node : Node) :
    second.walk (first.walk node) = (first.andThen second).walk node := by
  induction node using height_induction with
  | step node ih =>
    calc second.walk (first.walk node)
        = overChildren second.walk (second.apply (first.walk node)) := walk_eq second _
      _ = overChildren second.walk (second.apply (overChildren first.walk (first.apply node))) := by
          rw [walk_eq first]
      _ = overChildren second.walk (overChildren first.walk (second.apply (first.apply node))) := by
          rw [apart]
      _ = overChildren (second.walk ∘ first.walk) (second.apply (first.apply node)) :=
          overChildren_overChildren _ _ _
      _ = overChildren (first.andThen second).walk ((first.andThen second).apply node) := by
          apply overChildren_congr
          intro child member
          have lower := height_lt_of_mem member
          have bound := (first.andThen second).height_le node
          exact ih child (Nat.lt_of_lt_of_le lower bound)
      _ = (first.andThen second).walk node := (walk_eq _ node).symm

def ofKind (kind : Kind) (f : Node → Node) (height_le : ∀ node, (f node).height ≤ node.height) :
    Rewrite where
  apply := fun node => if node.kind = kind then f node else node
  height_le := by
    intro node
    split
    · exact height_le node
    · exact Nat.le_refl _

end Rewrite

theorem fst_mapState {σ : Type} {f : Node → σ → Node × σ} {g : Node → Node} {nodes : List Node}
    (same : ∀ node ∈ nodes, ∀ s, (f node s).1 = g node) (s : σ) :
    (mapState f nodes s).1 = nodes.map g := by
  induction nodes generalizing s with
  | nil => rfl
  | cons node nodes ih =>
    have first := same node List.mem_cons_self s
    have rest := ih fun other member => same other (List.mem_cons_of_mem _ member)
    rw [mapState, List.map_cons, ← first, ← rest]

theorem fst_mapChildren {σ : Type} {f : Node → σ → Node × σ} {g : Node → Node} {node : Node}
    (same : ∀ child ∈ node.childList, ∀ s, (f child s).1 = g child) (s : σ) :
    (mapChildren f node s).1 = overChildren g node := by
  unfold mapChildren
  split
  · next none => exact (overChildren_of_none g none).symm
  · next nodes children =>
    have each : ∀ child ∈ nodes, ∀ s, (f child s).1 = g child := by
      intro child member
      exact same child (by simpa [childList, children] using member)
    simp only [overChildren, children, Option.map_some, fst_mapState each]

/-- A walk by kind reaches all nodes as soon as its depth is the height of the tree. -/
theorem fst_rewriteKind {σ : Type} {kind : Kind} {f : Node → σ → Node × σ} {g : Node → Node}
    (height_le : ∀ node, (g node).height ≤ node.height) (same : ∀ node s, (f node s).1 = g node)
    (depth : Nat) (node : Node) (enough : node.height ≤ depth) (s : σ) :
    (rewriteKind kind f depth node s).1 = (Rewrite.ofKind kind g height_le).walk node := by
  induction depth generalizing node s with
  | zero =>
    rw [height_eq] at enough
    omega
  | succ depth ih =>
    have head : (if node.kind = kind then f node s else (node, s)).1 =
        (Rewrite.ofKind kind g height_le).apply node := by
      simp only [Rewrite.ofKind]
      split
      · exact same node s
      · rfl
    have step : rewriteKind kind f (depth + 1) node s = mapChildren (rewriteKind kind f depth)
        (if node.kind = kind then f node s else (node, s)).1
        (if node.kind = kind then f node s else (node, s)).2 := rfl
    have bound := (Rewrite.ofKind kind g height_le).height_le node
    rw [step, head, Rewrite.walk_eq]
    apply fst_mapChildren
    intro child member s
    have lower := height_lt_of_mem member
    exact ih child (by omega) s

end PageTree.Node
