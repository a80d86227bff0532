import PageTree.Proofs.Tree.Everywhere

/-!
Walks that take notes. A step relates a node to the node that takes its place, and names the nodes
that are noted for it. A walk does the step on a node and then walks the children that the step has
left, so that a fact about one step becomes a fact about the tree and all notes. A walk by kind whose
state counts what its function does is such a walk, and the count is the number of notes.
-/

namespace PageTree.Node

mutual

/-- A tree, what a walk makes of it, and the notes of the walk in document order. -/
inductive Walked (step : Node → Node → List Node → Prop) : Node → Node → List Node → Prop
  | intro {node left : Node} {news noted later : List Node} (here : step node left noted)
      (below : WalkedAll step left.childList news later) :
      Walked step node { left with children := left.children.map fun _ => news } (noted ++ later)

inductive WalkedAll (step : Node → Node → List Node → Prop) :
    List Node → List Node → List Node → Prop
  | nil : WalkedAll step [] [] []
  | cons {node new : Node} {nodes news noted later : List Node} (first : Walked step node new noted)
      (rest : WalkedAll step nodes news later) :
      WalkedAll step (node :: nodes) (new :: news) (noted ++ later)

end

theorem withChildList_eq_self (node : Node) :
    { node with children := node.children.map fun _ => node.childList } = node := by
  obtain ⟨kind, children, value, url, label, position, data, rest⟩ := node
  cases children <;> rfl

theorem childList_withChildren {node : Node} {nodes : List Node}
    (length : nodes.length = node.childList.length) :
    ({ node with children := node.children.map fun _ => nodes } : Node).childList = nodes := by
  cases children : node.children with
  | some _ => rfl
  | none =>
    rw [childList, children, Option.getD_none, List.length_nil] at length
    exact (List.length_eq_zero_iff.mp length).symm

theorem countKind_eq (kind : Kind) (node : Node) : countKind kind node =
    (if node.kind = kind then 1 else 0) + (node.childList.flatMap (ofKindIn kind)).length := by
  rw [countKind, ofKindIn_eq, List.length_append]
  congr 1
  split <;> rfl

theorem mapChildren_eq {σ : Type} (f : Node → σ → Node × σ) (node : Node) (s : σ) :
    mapChildren f node s =
      ({ node with children := node.children.map fun _ => (mapState f node.childList s).1 },
        (mapState f node.childList s).2) := by
  obtain ⟨kind, children, value, url, label, position, data, rest⟩ := node
  cases children <;> rfl

theorem rewriteKind_of_head {σ : Type} {kind : Kind} {f : Node → σ → Node × σ} {depth : Nat}
    {node left : Node} {news : List Node} {s s₁ s₂ : σ}
    (head : (if node.kind = kind then f node s else (node, s)) = (left, s₁))
    (below : mapState (rewriteKind kind f depth) left.childList s₁ = (news, s₂)) :
    rewriteKind kind f (depth + 1) node s =
      ({ left with children := left.children.map fun _ => news }, s₂) := by
  rw [rewriteKind, head]
  simp only [mapChildren_eq, below]

section Facts

variable {step : Node → Node → List Node → Prop}

theorem WalkedAll.length_eq {nodes news noted : List Node}
    (walked : WalkedAll step nodes news noted) : news.length = nodes.length := by
  match walked with
  | .nil => rfl
  | .cons _ rest => rw [List.length_cons, List.length_cons, rest.length_eq]
termination_by structural walked

theorem WalkedAll.childList_eq {left : Node} {news noted : List Node}
    (below : WalkedAll step left.childList news noted) :
    ({ left with children := left.children.map fun _ => news } : Node).childList = news :=
  childList_withChildren below.length_eq

mutual

theorem Walked.eq_self (still : ∀ {node left}, step node left [] → left = node) {node new noted}
    (walked : Walked step node new noted) (none : noted = []) : new = node := by
  match walked with
  | .intro here below =>
    obtain ⟨noneHere, noneBelow⟩ := List.append_eq_nil_iff.mp none
    rw [below.eq_self still noneBelow, withChildList_eq_self]
    exact still (noneHere ▸ here)
termination_by structural walked

theorem WalkedAll.eq_self (still : ∀ {node left}, step node left [] → left = node)
    {nodes news noted} (walked : WalkedAll step nodes news noted) (none : noted = []) :
    news = nodes := by
  match walked with
  | .nil => rfl
  | .cons first rest =>
    obtain ⟨firstNone, restNone⟩ := List.append_eq_nil_iff.mp none
    rw [first.eq_self still firstNone, rest.eq_self still restNone]
termination_by structural walked

end

mutual

theorem Walked.forall_noted {p : Node → Prop}
    (each : ∀ {node left noted}, step node left noted → ∀ note ∈ noted, p note) {node new noted}
    (walked : Walked step node new noted) : ∀ note ∈ noted, p note := by
  match walked with
  | .intro here below => exact List.forall_mem_append.mpr ⟨each here, below.forall_noted each⟩
termination_by structural walked

theorem WalkedAll.forall_noted {p : Node → Prop}
    (each : ∀ {node left noted}, step node left noted → ∀ note ∈ noted, p note)
    {nodes news noted} (walked : WalkedAll step nodes news noted) : ∀ note ∈ noted, p note := by
  match walked with
  | .nil => simp
  | .cons first rest =>
    exact List.forall_mem_append.mpr ⟨first.forall_noted each, rest.forall_noted each⟩
termination_by structural walked

end

mutual

theorem Walked.everywhere {p : Node → Prop}
    (after : ∀ {node left noted}, step node left noted → ∀ children, p { left with children })
    {node new noted} (walked : Walked step node new noted) : Everywhere p new := by
  match walked with
  | .intro here below =>
    refine .intro (after here _) ?_
    rw [below.childList_eq]
    exact below.everywhere after
termination_by structural walked

theorem WalkedAll.everywhere {p : Node → Prop}
    (after : ∀ {node left noted}, step node left noted → ∀ children, p { left with children })
    {nodes news noted} (walked : WalkedAll step nodes news noted) :
    ∀ new ∈ news, Everywhere p new := by
  match walked with
  | .nil => simp
  | .cons first rest =>
    exact List.forall_mem_cons.mpr ⟨first.everywhere after, rest.everywhere after⟩
termination_by structural walked

end

mutual

/-- If a step notes the children that it takes away from a node, and changes no kind, then a tree has
the nodes that are left and those below the notes. -/
theorem Walked.countKind_eq (kind : Kind)
    (takes : ∀ {node left noted}, step node left noted →
      left.kind = node.kind ∧ node.childList = noted ++ left.childList)
    {node new noted} (walked : Walked step node new noted) :
    countKind kind node = countKind kind new + (noted.flatMap (ofKindIn kind)).length := by
  match walked with
  | @Walked.intro _ _ left _ _ _ here below =>
    obtain ⟨same, children⟩ := takes here
    have further := below.countKind_eq kind takes
    rw [Node.countKind_eq, Node.countKind_eq kind { left with children := _ }, below.childList_eq,
      children, same, List.flatMap_append, List.flatMap_append, List.length_append,
      List.length_append]
    omega
termination_by structural walked

theorem WalkedAll.countKind_eq (kind : Kind)
    (takes : ∀ {node left noted}, step node left noted →
      left.kind = node.kind ∧ node.childList = noted ++ left.childList)
    {nodes news noted} (walked : WalkedAll step nodes news noted) :
    (nodes.flatMap (ofKindIn kind)).length =
      (news.flatMap (ofKindIn kind)).length + (noted.flatMap (ofKindIn kind)).length := by
  match walked with
  | .nil => rfl
  | .cons first rest =>
    have firstCount := first.countKind_eq kind takes
    have restCount := rest.countKind_eq kind takes
    rw [countKind, countKind] at firstCount
    simp only [List.flatMap_cons, List.flatMap_append, List.length_append]
    omega
termination_by structural walked

end

/-- A function with a counter that does a step on a node and counts the notes. -/
def Counts (step : Node → Node → List Node → Prop) (f : Node → Nat → Node × Nat) (node : Node) :
    Prop :=
  ∀ count, ∃ noted, step node (f node count).1 noted ∧ (f node count).2 = count + noted.length

variable {f : Node → Nat → Node × Nat}

theorem counts_mapState {nodes : List Node} (each : ∀ node ∈ nodes, Counts (Walked step) f node)
    (count : Nat) : ∃ noted, WalkedAll step nodes (mapState f nodes count).1 noted ∧
      (mapState f nodes count).2 = count + noted.length := by
  induction nodes generalizing count with
  | nil => exact ⟨[], .nil, rfl⟩
  | cons node nodes ih =>
    obtain ⟨here, others⟩ := List.forall_mem_cons.mp each
    obtain ⟨noted, first, counted⟩ := here count
    obtain ⟨later, rest, more⟩ := ih others (f node count).2
    refine ⟨noted ++ later, .cons first rest, ?_⟩
    have last : (mapState f (node :: nodes) count).2 = (mapState f nodes (f node count).2).2 := rfl
    rw [last, more, counted, List.length_append, Nat.add_assoc]

section RewriteKind

variable {kind : Kind} (others : ∀ node, node.kind ≠ kind → step node node [])
  (steps : ∀ node, node.kind = kind → Counts step f node)
  (height_le : ∀ node count, (f node count).1.height ≤ node.height)

include others steps height_le

theorem counts_rewriteKind {depth : Nat} {node : Node} (enough : node.height ≤ depth) :
    Counts (Walked step) (rewriteKind kind f depth) node := by
  intro count
  induction depth generalizing node count with
  | zero =>
    rw [height_eq] at enough
    omega
  | succ depth ih =>
    obtain ⟨left, counted, head⟩ : ∃ left counted,
        (if node.kind = kind then f node count else (node, count)) = (left, counted) := ⟨_, _, rfl⟩
    have first : ∃ noted, step node left noted ∧ counted = count + noted.length ∧
        left.height ≤ node.height := by
      by_cases same : node.kind = kind
      · rw [if_pos same] at head
        obtain ⟨noted, here, length⟩ := steps node same count
        rw [head] at here length
        have bound := height_le node count
        rw [head] at bound
        exact ⟨noted, here, length, bound⟩
      · rw [if_neg same] at head
        obtain ⟨rfl, rfl⟩ := Prod.mk.inj head
        exact ⟨[], others node same, rfl, Nat.le_refl _⟩
    obtain ⟨noted, here, length, bound⟩ := first
    -- The step has made nothing higher, so the remaining depth is enough for what it left.
    have each : ∀ child ∈ left.childList, Counts (Walked step) (rewriteKind kind f depth) child := by
      intro child member count
      have lower := height_lt_of_mem member
      exact ih (by omega) count
    obtain ⟨later, below, more⟩ := counts_mapState each counted
    have walked : mapState (rewriteKind kind f depth) left.childList counted =
        (_, counted + later.length) := Prod.ext rfl more
    have whole := rewriteKind_of_head head walked
    refine ⟨noted ++ later, ?_, ?_⟩
    · rw [whole]
      exact .intro here below
    · rw [whole, length, List.length_append, Nat.add_assoc]

theorem walked_rewriteKind (tree : Node) : ∃ noted,
    Walked step tree (rewriteKind kind f tree.height tree 0).1 noted ∧
      (rewriteKind kind f tree.height tree 0).2 = noted.length := by
  have counts := counts_rewriteKind others steps height_le (Nat.le_refl tree.height) 0
  simpa only [Nat.zero_add] using counts

end RewriteKind

end Facts

end PageTree.Node
