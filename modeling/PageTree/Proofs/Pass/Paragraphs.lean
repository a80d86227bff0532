import PageTree.Proofs.Pass.Settled
import PageTree.Proofs.Tree.Noted

/-!
What the entity pass counts. Each paragraph that qualifies is rebuilt and noted, and every other node
stays as it is, so that a walk without notes has changed nothing. No paragraph qualifies after the
pass: a second one finds nothing to do, and a pass that leaves a tree as it is has found nothing.
-/

namespace PageTree.EntityPass

open Node (Walked Counts)

/-- The step of the pass on one node. -/
inductive Rebuilds : Node → Node → List Node → Prop
  | still {node : Node} (plain : ¬ Qualifies node) : Rebuilds node node []
  | rebuilt {node : Node} (qualifies : Qualifies node) :
      Rebuilds node { node with children := some (node.childList.flatMap rebuildChild) } [node]

theorem counts_step {node : Node} (paragraph : node.kind = .paragraph) :
    Counts Rebuilds step node := by
  intro count
  by_cases qualifies : Qualifies node
  · refine ⟨[node], ?_⟩
    simp only [step, encode_of_qualifies qualifies]
    exact ⟨.rebuilt qualifies, rfl⟩
  · refine ⟨[], ?_⟩
    simp only [step, encode_of_not_qualifies paragraph qualifies]
    exact ⟨.still qualifies, rfl⟩

theorem walked_apply (tree : Node) : ∃ rebuilt, Walked Rebuilds tree (apply tree).1 rebuilt ∧
    (apply tree).2 = rebuilt.length := by
  have others : ∀ node : Node, node.kind ≠ .paragraph → Rebuilds node node [] :=
    fun node other => .still fun qualifies => other qualifies.1
  exact Node.walked_rewriteKind others (fun _ => counts_step)
    (fun node _ => local_encode.height_le node) tree

theorem eq_self_of_not_rebuilt {tree : Node} (none : (apply tree).2 = 0) :
    (apply tree).1 = tree := by
  obtain ⟨rebuilt, walked, count⟩ := walked_apply tree
  refine walked.eq_self ?_ (List.length_eq_zero_iff.mp (count.symm.trans none))
  intro node left here
  cases here
  rfl

theorem everywhere_not_qualifies (tree : Node) :
    Node.Everywhere (fun node => ¬ Qualifies node) (apply tree).1 := by
  have encodes : Pass.entity ∈ [Pass.entity] := List.mem_singleton_self _
  exact @Pass.everywhere_not_qualifies {} [.entity] encodes tree

/-- A second pass finds nothing to rebuild, and the count of a pass is zero if and only if the tree
is the same after it. -/
theorem apply_apply (tree : Node) :
    apply (apply tree).1 = ((apply tree).1, 0) ∧
      ((apply tree).2 = 0 ↔ (apply tree).1 = tree) := by
  have again := apply_eq_self (everywhere_not_qualifies tree)
  refine ⟨again, eq_self_of_not_rebuilt, fun same => ?_⟩
  -- The second pass is then the first one over again, and it counts nothing.
  rw [same] at again
  exact congrArg Prod.snd again

end PageTree.EntityPass
