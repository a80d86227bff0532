import PageTree.Proofs.Tree.Walk

/-!
What holds at every node of a tree. A walk makes a fact true everywhere if its rewrite makes it true
of one node. A walk that finds nothing to rewrite leaves the tree as it is; and where the rewrite of
a node always shows in the number of its children, no other walk does.
-/

namespace PageTree.Node

theorem everywhere_iff {p : Node → Prop} {node : Node} :
    Everywhere p node ↔ p node ∧ ∀ child ∈ node.childList, Everywhere p child := by
  constructor
  · intro all
    cases all with
    | intro here below => exact ⟨here, below⟩
  · intro parts
    exact .intro parts.1 parts.2

theorem Everywhere.mp {p q : Node → Prop} {node : Node}
    (imp : Everywhere (fun node => p node → q node) node) (all : Everywhere p node) :
    Everywhere q node := by
  induction imp with
  | intro here below ih =>
    obtain ⟨first, rest⟩ := everywhere_iff.mp all
    exact .intro (here first) fun child member => ih child member (rest child member)

theorem everywhere_congr {p q : Node → Prop} {node : Node}
    (same : Everywhere (fun node => p node ↔ q node) node) :
    Everywhere p node ↔ Everywhere q node :=
  ⟨(same.imp fun _ both => both.mp).mp, (same.imp fun _ both => both.mpr).mp⟩

theorem ofKindInList_eq (kind : Kind) (nodes : List Node) :
    ofKindInList kind nodes = nodes.flatMap (ofKindIn kind) := by
  induction nodes with
  | nil => rfl
  | cons node nodes ih => rw [ofKindInList, ih, List.flatMap_cons]

theorem ofKindIn_eq (kind : Kind) (node : Node) : ofKindIn kind node =
    (if node.kind = kind then [node] else []) ++ node.childList.flatMap (ofKindIn kind) := by
  obtain ⟨k, children, value, url, label, position, data, rest⟩ := node
  rw [ofKindIn, ← ofKindInList_eq]
  cases children <;> rfl

theorem everywhere_ofKind_iff {kind : Kind} {p : Node → Prop} {tree : Node} :
    Everywhere (fun node => node.kind = kind → p node) tree ↔
      ∀ node ∈ ofKindIn kind tree, p node := by
  induction tree using child_induction with
  | step tree ih =>
    have here : (tree.kind = kind → p tree) ↔
        ∀ node ∈ (if tree.kind = kind then [tree] else []), p node := by
      by_cases same : tree.kind = kind <;> simp [same]
    have below :
        (∀ child ∈ tree.childList, Everywhere (fun node => node.kind = kind → p node) child) ↔
          ∀ node ∈ tree.childList.flatMap (ofKindIn kind), p node := by
      rw [List.forall_mem_flatMap]
      exact forall₂_congr ih
    rw [everywhere_iff, here, below, ofKindIn_eq, List.forall_mem_append]

theorem overChildren_eq_self_iff {f : Node → Node} {node : Node} :
    overChildren f node = node ↔ ∀ child ∈ node.childList, f child = child := by
  constructor
  · intro same
    have lists : node.childList.map f = node.childList.map id := by
      rw [← childList_overChildren, same, List.map_id]
    exact List.map_inj_left.mp lists
  · intro each
    exact (overChildren_congr each).trans (overChildren_id node)

namespace Rewrite

theorem everywhere_walk {p : Node → Prop} {r : Rewrite}
    (after : ∀ node, p (overChildren r.walk (r.apply node))) (tree : Node) :
    Everywhere p (r.walk tree) := by
  induction tree using height_induction with
  | step tree ih =>
    rw [r.walk_eq]
    refine .intro (after tree) fun child member => ?_
    rw [childList_overChildren] at member
    obtain ⟨source, stands, rfl⟩ := List.mem_map.mp member
    exact ih source (Nat.lt_of_lt_of_le (height_lt_of_mem stands) (r.height_le tree))

/-- A walk leaves a tree as it is only if it rewrites no node, since each rewrite shows. -/
theorem walk_eq_self_iff {r : Rewrite} {tree : Node} (shows : Everywhere (fun node =>
      r.apply node = node ∨ (r.apply node).childList.length ≠ node.childList.length) tree) :
    r.walk tree = tree ↔ Everywhere (fun node => r.apply node = node) tree := by
  induction shows with
  | @intro node here below ih =>
    rw [r.walk_eq, everywhere_iff]
    constructor
    · intro same
      -- The walk over the children keeps their number, so the rewrite has kept it too.
      have length : (r.apply node).childList.length = node.childList.length := by
        have lists := congrArg (fun node => node.childList.length) same
        simpa only [childList_overChildren, List.length_map] using lists
      have kept := here.resolve_right (not_not_intro length)
      rw [kept] at same
      exact ⟨kept, fun child member =>
        (ih child member).mp (overChildren_eq_self_iff.mp same child member)⟩
    · intro parts
      rw [parts.1]
      exact overChildren_eq_self_iff.mpr fun child member =>
        (ih child member).mpr (parts.2 child member)

end Rewrite

section State

variable {σ : Type} {f : Node → σ → Node × σ}

theorem mapState_eq_self {nodes : List Node}
    (each : ∀ node ∈ nodes, ∀ s, f node s = (node, s)) (s : σ) :
    mapState f nodes s = (nodes, s) := by
  induction nodes with
  | nil => rfl
  | cons node nodes ih =>
    obtain ⟨first, rest⟩ := List.forall_mem_cons.mp each
    simp only [mapState, first s, ih rest]

theorem mapChildren_eq_self {node : Node}
    (each : ∀ child ∈ node.childList, ∀ s, f child s = (child, s)) (s : σ) :
    mapChildren f node s = (node, s) := by
  unfold mapChildren
  split
  · rfl
  · next nodes children =>
    have all : ∀ child ∈ nodes, ∀ s, f child s = (child, s) := by
      intro child member
      exact each child (by simpa [childList, children] using member)
    have same : { node with children := some nodes } = node := by
      cases node
      cases children
      rfl
    simp only [mapState_eq_self all, same]

theorem rewriteKind_eq_self {kind : Kind} {tree : Node}
    (all : Everywhere (fun node => node.kind = kind → ∀ s, f node s = (node, s)) tree) (depth : Nat)
    (s : σ) : rewriteKind kind f depth tree s = (tree, s) := by
  induction depth generalizing tree s with
  | zero => rfl
  | succ depth ih =>
    obtain ⟨here, below⟩ := everywhere_iff.mp all
    have first : (if tree.kind = kind then f tree s else (tree, s)) = (tree, s) := by
      split
      · next same => exact here same s
      · rfl
    rw [rewriteKind, first]
    exact mapChildren_eq_self (fun child member => ih (below child member)) s

end State

end PageTree.Node
