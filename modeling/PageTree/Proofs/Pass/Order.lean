import PageTree.Proofs.Pass.Local

/-!
The passes do not depend on each other. Each of them is a walk that rewrites the nodes of one kind,
no two of them the same, and no rewrite sees what the walk of another pass does to the children of
its node. So the passes may run in any order, and one walk that rewrites every node by its own kind
does the work of all.
-/

namespace PageTree

open Node (overChildren Discreet Local Rewrite)

namespace Node.Rewrite

def nothing : Rewrite := ⟨fun node => node, fun _ => Nat.le_refl _⟩

theorem walk_nothing (node : Node) : nothing.walk node = node := by
  induction node using child_induction with
  | step node ih =>
    have same : Node.overChildren nothing.walk node = Node.overChildren id node :=
      overChildren_congr ih
    calc nothing.walk node
        = Node.overChildren nothing.walk node := walk_eq nothing node
      _ = Node.overChildren id node := same
      _ = node := overChildren_id node

theorem eq_of_apply_eq {first second : Rewrite}
    (same : ∀ node, first.apply node = second.apply node) : first = second := by
  cases first
  cases second
  congr
  funext node
  exact same node

end Node.Rewrite

namespace Pass

def kind : Pass → Kind
  | heading => .heading
  | link => .link
  | entity => .paragraph

def rewriteNode (context : PageContext) : Pass → Node → Node
  | heading, node => (HeadingPass.normalize node).1
  | link, node => (LinkPass.process context node).1
  | entity, node => (EntityPass.encode node).1

theorem kind_injective {first second : Pass} (same : first.kind = second.kind) :
    first = second := by
  revert same
  cases first <;> cases second <;> decide

theorem local_rewriteNode (context : PageContext) (pass : Pass) :
    Local (pass.rewriteNode context) := by
  cases pass with
  | heading => exact HeadingPass.local_normalize
  | link => exact LinkPass.local_process context
  | entity => exact EntityPass.local_encode

def rewrite (context : PageContext) (pass : Pass) : Rewrite :=
  .ofKind pass.kind (pass.rewriteNode context) (pass.local_rewriteNode context).height_le

theorem fst_apply (context : PageContext) (pass : Pass) (tree : Node) :
    (pass.apply context tree).1 = (pass.rewrite context).walk tree := by
  cases pass with
  | heading =>
    apply Node.fst_rewriteKind (f := HeadingPass.step) _ (fun _ _ => rfl)
    exact Nat.le_refl tree.height
  | link =>
    apply Node.fst_rewriteKind (f := LinkPass.step context) _ (fun _ _ => rfl)
    exact Nat.le_refl tree.height
  | entity =>
    apply Node.fst_rewriteKind (f := EntityPass.step) _ (fun _ _ => rfl)
    exact Nat.le_refl tree.height

theorem discreet_rewrite (context : PageContext) (pass : Pass) :
    Discreet (pass.rewrite context).apply := by
  apply (pass.local_rewriteNode context).discreet_ofKind pass.kind
  · cases pass <;> simp [kind]
  · cases pass <;> simp [kind]

def rewriteAll (context : PageContext) : List Pass → Rewrite
  | [] => .nothing
  | pass :: passes => (pass.rewrite context).andThen (rewriteAll context passes)

theorem rewriteAll_overChildren (context : PageContext) (order : List Pass) {f : Node → Node}
    (discreet : Discreet f) (node : Node) :
    (rewriteAll context order).apply (overChildren f node) =
      overChildren f ((rewriteAll context order).apply node) := by
  induction order generalizing node with
  | nil => rfl
  | cons pass order ih =>
    have first := (pass.local_rewriteNode context).ofKind_overChildren pass.kind discreet node
    calc (rewriteAll context (pass :: order)).apply (overChildren f node)
        = (rewriteAll context order).apply ((pass.rewrite context).apply (overChildren f node)) :=
          rfl
      _ = (rewriteAll context order).apply (overChildren f ((pass.rewrite context).apply node)) :=
          congrArg _ first
      _ = overChildren f ((rewriteAll context (pass :: order)).apply node) := ih _

/-- Passes that run one after the other do the work of one walk. -/
theorem fst_runPasses (context : PageContext) (order : List Pass) (tree : Node) :
    (Transformer.runPasses context order tree).1 = (rewriteAll context order).walk tree := by
  induction order generalizing tree with
  | nil => exact (Node.Rewrite.walk_nothing tree).symm
  | cons pass order ih =>
    have apart := rewriteAll_overChildren context order (pass.discreet_rewrite context).walk
    calc (Transformer.runPasses context (pass :: order) tree).1
        = (Transformer.runPasses context order (pass.apply context tree).1).1 := rfl
      _ = (rewriteAll context order).walk ((pass.rewrite context).walk tree) := by
          rw [ih, fst_apply]
      _ = (rewriteAll context (pass :: order)).walk tree := Node.Rewrite.walk_walk apart tree

theorem rewriteAll_of_kind (context : PageContext) {order : List Pass} (distinct : order.Nodup)
    (pass : Pass) (node : Node) (own : node.kind = pass.kind) :
    (rewriteAll context order).apply node =
      if pass ∈ order then pass.rewriteNode context node else node := by
  induction order generalizing node with
  | nil => rfl
  | cons first order ih =>
    obtain ⟨fresh, rest⟩ := List.nodup_cons.mp distinct
    have step : (rewriteAll context (first :: order)).apply node =
        (rewriteAll context order).apply ((first.rewrite context).apply node) := rfl
    by_cases same : first = pass
    · subst same
      have done : (first.rewrite context).apply node = first.rewriteNode context node := if_pos own
      have kept := (first.local_rewriteNode context).kind node
      rw [step, done, ih rest _ (kept.trans own), if_neg fresh, if_pos List.mem_cons_self]
    · have other : node.kind ≠ first.kind := fun both => same (kind_injective (both.symm.trans own))
      have skipped : (first.rewrite context).apply node = node := if_neg other
      have member : pass ∈ first :: order ↔ pass ∈ order := by
        rw [List.mem_cons]
        exact or_iff_right (Ne.symm same)
      rw [step, skipped, ih rest node own]
      simp only [member]

theorem rewriteAll_of_other (context : PageContext) (order : List Pass) (node : Node)
    (other : ∀ pass : Pass, node.kind ≠ pass.kind) :
    (rewriteAll context order).apply node = node := by
  induction order with
  | nil => rfl
  | cons pass order ih =>
    have skipped : (pass.rewrite context).apply node = node := if_neg (other pass)
    calc (rewriteAll context (pass :: order)).apply node
        = (rewriteAll context order).apply ((pass.rewrite context).apply node) := rfl
      _ = node := by rw [skipped, ih]

end Pass

namespace Passes

theorem nodup_enabled (passes : Passes) : passes.enabled.Nodup := by
  obtain ⟨heading, link, entity⟩ := passes
  revert heading link entity
  decide

/-- The rewrite of each node by the pass for its kind, if that pass is enabled. -/
def rewriteByKind (context : PageContext) (passes : Passes) (node : Node) : Node :=
  match node.kind with
  | .heading => if passes.heading then (HeadingPass.normalize node).1 else node
  | .link => if passes.link then (LinkPass.process context node).1 else node
  | .paragraph => if passes.entity then (EntityPass.encode node).1 else node
  | _ => node

theorem mem_enabled (passes : Passes) : (.heading ∈ passes.enabled ↔ passes.heading) ∧
    (.link ∈ passes.enabled ↔ passes.link) ∧ (.entity ∈ passes.enabled ↔ passes.entity) := by
  obtain ⟨heading, link, entity⟩ := passes
  revert heading link entity
  decide

theorem rewriteAll_eq_rewriteByKind (context : PageContext) {passes : Passes} {order : List Pass}
    (perm : order.Perm passes.enabled) (node : Node) :
    (Pass.rewriteAll context order).apply node = rewriteByKind context passes node := by
  have distinct := perm.nodup_iff.mpr passes.nodup_enabled
  obtain ⟨heading, link, entity⟩ := passes.mem_enabled
  cases kind : node.kind with
  | heading =>
    rw [Pass.rewriteAll_of_kind context distinct .heading node kind, rewriteByKind, kind]
    simp only [perm.mem_iff, heading]
    rfl
  | link =>
    rw [Pass.rewriteAll_of_kind context distinct .link node kind, rewriteByKind, kind]
    simp only [perm.mem_iff, link]
    rfl
  | paragraph =>
    rw [Pass.rewriteAll_of_kind context distinct .entity node kind, rewriteByKind, kind]
    simp only [perm.mem_iff, entity]
    rfl
  | _ =>
    rw [Pass.rewriteAll_of_other context order node, rewriteByKind, kind]
    rw [kind]
    exact fun pass => by cases pass <;> simp [Pass.kind]

theorem height_rewriteByKind_le (context : PageContext) (passes : Passes) (node : Node) :
    (rewriteByKind context passes node).height ≤ node.height := by
  have same := rewriteAll_eq_rewriteByKind context (List.Perm.refl passes.enabled) node
  rw [← same]
  exact (Pass.rewriteAll context passes.enabled).height_le node

/-- One walk over the tree that rewrites each node by its own kind. -/
def single (context : PageContext) (passes : Passes) : Rewrite :=
  ⟨rewriteByKind context passes, height_rewriteByKind_le context passes⟩

end Passes

namespace Transformer

/-- The enabled passes may run in any order, and one walk does the work of all. -/
theorem runPasses_eq_walk_single (context : PageContext) (passes : Passes) {order : List Pass}
    (perm : order.Perm passes.enabled) (tree : Node) :
    (runPasses context order tree).1 = (passes.single context).walk tree ∧
      (run ⟨context, passes⟩ tree).1 = (passes.single context).walk tree := by
  have oneWalk : ∀ {order : List Pass}, order.Perm passes.enabled →
      (runPasses context order tree).1 = (passes.single context).walk tree := by
    intro order perm
    have same : Pass.rewriteAll context order = passes.single context :=
      Node.Rewrite.eq_of_apply_eq (Passes.rewriteAll_eq_rewriteByKind context perm)
    rw [Pass.fst_runPasses, same]
  exact ⟨oneWalk perm, oneWalk (List.Perm.refl _)⟩

/-- The passes run backwards over a heading inside a paragraph that is rebuilt. -/
theorem runPasses_eq_walk_single_backwards :
    [Pass.entity, .link, .heading].Perm ({} : Passes).enabled ∧
      (runPasses {} [.entity, .link, .heading] (.paragraph [.text "a…", .text "...",
        .heading 1 [.linkReference "2" [], .link "http://x" []]])).1 =
          (({} : Passes).single {}).walk (.paragraph [.text "a…", .text "...",
            .heading 1 [.linkReference "2" [], .link "http://x" []]]) :=
  ⟨by decide, (runPasses_eq_walk_single {} {} (by decide) _).1⟩

end Transformer

end PageTree
