import PageTree.Tree.Node

/-!
Induction over trees. The children of a node are lower than the node, so a fact that passes from all
children of a node to the node is true of every tree.
-/

namespace PageTree.Node

theorem height_le_heightOfList {node : Node} {nodes : List Node} (member : node ∈ nodes) :
    node.height ≤ heightOfList nodes := by
  induction nodes with
  | nil => exact absurd member (by simp)
  | cons first nodes ih =>
    rw [heightOfList]
    rcases List.mem_cons.mp member with rfl | later
    · exact Nat.le_max_left _ _
    · exact Nat.le_trans (ih later) (Nat.le_max_right _ _)

theorem height_eq (node : Node) : node.height = heightOfList node.childList + 1 := by
  obtain ⟨kind, children, value, url, label, position, data, rest⟩ := node
  cases children <;> rfl

theorem height_lt_of_mem {child node : Node} (member : child ∈ node.childList) :
    child.height < node.height := by
  rw [height_eq node]
  exact Nat.lt_succ_of_le (height_le_heightOfList member)

/-- Induction over trees: a fact may be assumed of all trees that are lower. -/
theorem height_induction {motive : Node → Prop}
    (step : ∀ node : Node, (∀ lower : Node, lower.height < node.height → motive lower) →
      motive node) (node : Node) : motive node :=
  step node fun lower _ => height_induction step lower
termination_by node.height

/-- Induction over a tree: a fact may be assumed of all children of a node. -/
theorem child_induction {motive : Node → Prop}
    (step : ∀ node : Node, (∀ child ∈ node.childList, motive child) → motive node) (node : Node) :
    motive node := by
  induction node using height_induction with
  | step node ih => exact step node fun child member => ih child (height_lt_of_mem member)

inductive Everywhere (p : Node → Prop) : Node → Prop
  | intro {node : Node} (here : p node) (below : ∀ child ∈ node.childList, Everywhere p child) :
      Everywhere p node

theorem Everywhere.imp {p q : Node → Prop} (imp : ∀ node, p node → q node) {node : Node}
    (all : Everywhere p node) : Everywhere q node := by
  induction all with
  | intro here below ih => exact .intro (imp _ here) ih

end PageTree.Node
