import PageTree.Proofs.Tree.Noted

/-!
The calls of a walk by kind. A function that makes no node higher may add, remove or replace the very
children that the walk goes on to: the walk ends all the same, and its calls and the nodes of the kind in
the tree that it leaves match one to one, in document order. Each of these nodes is what its call
returned, with its children changed by no calls but those that come right after.
-/

namespace PageTree.Node

variable {σ : Type} {kind : Kind} {f : Node → σ → Node × σ}

/-- A walk over trees one after the other, with what each call of the function returned, in order. It has
no bound on its depth, so that it ends just when it has a derivation. -/
inductive Visits (kind : Kind) (f : Node → σ → Node × σ) :
    List Node → σ → List (Node × σ) → List Node → σ → Prop
  | nil {s : σ} : Visits kind f [] s [] [] s
  | call {node left : Node} {nodes children news : List Node} {s s₁ s₂ s₃ : σ}
      {inner later : List (Node × σ)} (same : node.kind = kind) (returned : f node s = (left, s₁))
      (below : Visits kind f left.childList s₁ inner children s₂)
      (rest : Visits kind f nodes s₂ later news s₃) :
      Visits kind f (node :: nodes) s ((left, s₁) :: (inner ++ later))
        ({ left with children := left.children.map fun _ => children } :: news) s₃
  | pass {node : Node} {nodes children news : List Node} {s s₁ s₂ : σ}
      {inner later : List (Node × σ)} (other : node.kind ≠ kind)
      (below : Visits kind f node.childList s inner children s₁)
      (rest : Visits kind f nodes s₁ later news s₂) :
      Visits kind f (node :: nodes) s (inner ++ later)
        ({ node with children := node.children.map fun _ => children } :: news) s₂

/-- The function with a record of what its calls returned. -/
def recorded (f : Node → σ → Node × σ) (node : Node) (record : σ × List (Node × σ)) :
    Node × (σ × List (Node × σ)) :=
  ((f node record.1).1, ((f node record.1).2, record.2 ++ [f node record.1]))

/-- Calls and nodes that match one to one, in order. A node is what its call returned, with the children
that the calls right after it made of those it had. -/
inductive Matches (kind : Kind) (f : Node → σ → Node × σ) : List (Node × σ) → List Node → Prop
  | nil : Matches kind f [] []
  | cons {left : Node} {children nodes : List Node} {s s' : σ} {inner later : List (Node × σ)}
      (below : Visits kind f left.childList s inner children s')
      (rest : Matches kind f (inner ++ later) nodes) :
      Matches kind f ((left, s) :: (inner ++ later))
        ({ left with children := left.children.map fun _ => children } :: nodes)

namespace Visits

theorem length_eq {nodes news : List Node} {s s' : σ} {calls : List (Node × σ)}
    (visits : Visits kind f nodes s calls news s') : news.length = nodes.length := by
  induction visits with
  | nil => rfl
  | call _ _ _ _ _ ih => rw [List.length_cons, List.length_cons, ih]
  | pass _ _ _ _ ih => rw [List.length_cons, List.length_cons, ih]

/-- A walk without a bound on its depth ends if no call makes a node higher. -/
theorem exists_of_height_le
    (height_le : ∀ node s, node.kind = kind → (f node s).1.height ≤ node.height) {bound : Nat}
    {nodes : List Node} (low : ∀ node ∈ nodes, node.height ≤ bound) (s : σ) :
    ∃ calls news s', Visits kind f nodes s calls news s' := by
  -- The bound falls with each level, whatever children a call leaves, and the trees beside a node keep it.
  induction bound generalizing nodes s with
  | zero =>
    cases nodes with
    | nil => exact ⟨[], [], s, .nil⟩
    | cons node nodes =>
      have lowest := low node List.mem_cons_self
      rw [height_eq] at lowest
      omega
  | succ bound deeper =>
    induction nodes generalizing s with
    | nil => exact ⟨[], [], s, .nil⟩
    | cons node nodes next =>
      obtain ⟨own, others⟩ := List.forall_mem_cons.mp low
      have lower : ∀ left : Node, left.height ≤ node.height →
          ∀ child ∈ left.childList, child.height ≤ bound := by
        intro left le child member
        have lt := height_lt_of_mem member
        omega
      by_cases same : node.kind = kind
      · obtain ⟨inner, children, s₂, below⟩ :=
          deeper (lower (f node s).1 (height_le node s same)) (f node s).2
        obtain ⟨later, news, s₃, rest⟩ := next others s₂
        exact ⟨_, _, s₃, .call same rfl below rest⟩
      · obtain ⟨inner, children, s₁, below⟩ := deeper (lower node (Nat.le_refl _)) s
        obtain ⟨later, news, s₂, rest⟩ := next others s₁
        exact ⟨_, _, s₂, .pass same below rest⟩

theorem rewriteKind_of_below {depth : Nat} {node left : Node} {children : List Node} {s s₁ s₂ : σ}
    (enough : node.height ≤ depth) (lower : left.height ≤ node.height)
    (head : (if node.kind = kind then f node s else (node, s)) = (left, s₁))
    (below : ∀ {depth : Nat}, (∀ child ∈ left.childList, child.height ≤ depth) →
      mapState (rewriteKind kind f depth) left.childList s₁ = (children, s₂)) :
    rewriteKind kind f depth node s =
      ({ left with children := left.children.map fun _ => children }, s₂) := by
  cases depth with
  | zero =>
    rw [height_eq] at enough
    omega
  | succ depth =>
    refine rewriteKind_of_head head (below fun child member => ?_)
    have lt := height_lt_of_mem member
    omega

theorem mapState_eq (height_le : ∀ node s, node.kind = kind → (f node s).1.height ≤ node.height)
    {nodes news : List Node} {s s' : σ} {calls : List (Node × σ)}
    (visits : Visits kind f nodes s calls news s') {depth : Nat}
    (enough : ∀ node ∈ nodes, node.height ≤ depth) :
    mapState (rewriteKind kind f depth) nodes s = (news, s') := by
  induction visits generalizing depth with
  | nil => rfl
  | @call node left _ _ _ s _ _ _ _ _ same returned _ _ below rest =>
    obtain ⟨own, others⟩ := List.forall_mem_cons.mp enough
    have lower : left.height ≤ node.height := by
      have le := height_le node s same
      rwa [returned] at le
    have here := rewriteKind_of_below own lower ((if_pos same).trans returned) below
    simp only [mapState, here, rest others]
  | pass other _ _ below rest =>
    obtain ⟨own, others⟩ := List.forall_mem_cons.mp enough
    have here := rewriteKind_of_below own (Nat.le_refl _) (if_neg other) below
    simp only [mapState, here, rest others]

theorem rewriteKind_eq
    (height_le : ∀ node s, node.kind = kind → (f node s).1.height ≤ node.height)
    {tree result : Node} {s s' : σ} {calls : List (Node × σ)}
    (visits : Visits kind f [tree] s calls [result] s') {depth : Nat} (enough : tree.height ≤ depth) :
    rewriteKind kind f depth tree s = (result, s') := by
  have walked := visits.mapState_eq height_le (List.forall_mem_singleton.mpr enough)
  simp only [mapState, Prod.mk.injEq, List.cons.injEq, and_true] at walked
  exact Prod.ext walked.1 walked.2

theorem recorded {nodes news : List Node} {s s' : σ} {calls : List (Node × σ)}
    (visits : Visits kind f nodes s calls news s') (before : List (Node × σ)) :
    ∃ records, Visits kind (recorded f) nodes (s, before) records news (s', before ++ calls) := by
  induction visits generalizing before with
  | nil => exact ⟨[], by rw [List.append_nil]; exact .nil⟩
  | @call node left _ _ _ s s₁ _ _ inner later same returned _ _ below rest =>
    have head : Node.recorded f node (s, before) = (left, (s₁, before ++ [(left, s₁)])) := by
      simp only [Node.recorded, returned]
    obtain ⟨_, below⟩ := below (before ++ [(left, s₁)])
    obtain ⟨_, rest⟩ := rest (before ++ [(left, s₁)] ++ inner)
    have walk := Visits.call same head below rest
    rw [List.append_assoc, List.append_assoc] at walk
    exact ⟨_, walk⟩
  | pass other _ _ below rest =>
    obtain ⟨_, below⟩ := below before
    obtain ⟨_, rest⟩ := rest (before ++ _)
    have walk := Visits.pass other below rest
    rw [List.append_assoc] at walk
    exact ⟨_, walk⟩

end Visits

namespace Matches

theorem append {calls others : List (Node × σ)} {nodes more : List Node}
    (first : Matches kind f calls nodes) (second : Matches kind f others more) :
    Matches kind f (calls ++ others) (nodes ++ more) := by
  induction first with
  | nil => exact second
  | cons below _ ih =>
    rw [List.append_assoc] at ih
    rw [List.cons_append, List.cons_append, List.append_assoc]
    exact .cons below ih

theorem length_eq {calls : List (Node × σ)} {nodes : List Node} (same : Matches kind f calls nodes) :
    calls.length = nodes.length := by
  induction same with
  | nil => rfl
  | cons _ _ ih => rw [List.length_cons, List.length_cons, ih]

theorem exists_of_getElem? {calls : List (Node × σ)} {nodes : List Node}
    (same : Matches kind f calls nodes) {i : Nat} {left : Node} {s : σ}
    (known : calls[i]? = some (left, s)) : ∃ inner later children s',
      calls.drop (i + 1) = inner ++ later ∧ Visits kind f left.childList s inner children s' ∧
        nodes[i]? = some { left with children := left.children.map fun _ => children } := by
  induction same generalizing i with
  | nil => cases known
  | cons below _ ih =>
    cases i with
    | zero =>
      obtain ⟨rfl, rfl⟩ := Prod.mk.inj (Option.some.inj known)
      exact ⟨_, _, _, _, rfl, below, rfl⟩
    | succ i => exact ih known

end Matches

/-- The calls of a walk match the nodes of the kind that it leaves. -/
theorem Visits.matches (kind_eq : ∀ node s, node.kind = kind → (f node s).1.kind = kind)
    {nodes news : List Node} {s s' : σ} {calls : List (Node × σ)}
    (visits : Visits kind f nodes s calls news s') :
    Matches kind f calls (news.flatMap (ofKindIn kind)) := by
  induction visits with
  | nil => exact .nil
  | @call node left _ _ _ s _ _ _ _ _ same returned below _ inside after =>
    have still : left.kind = kind := by
      have kept := kind_eq node s same
      rwa [returned] at kept
    rw [List.flatMap_cons, ofKindIn_eq, childList_withChildren below.length_eq, if_pos still]
    exact .cons below (inside.append after)
  | pass other below _ inside after =>
    rw [List.flatMap_cons, ofKindIn_eq, childList_withChildren below.length_eq, if_neg other]
    exact inside.append after

/-- A walk by kind ends, and it calls its function once for each node of the kind in the tree that it
leaves, in document order, if the function keeps the kind of nodes and makes none higher. -/
theorem rewriteKind_calls (kind_eq : ∀ node s, node.kind = kind → (f node s).1.kind = kind)
    (height_le : ∀ node s, node.kind = kind → (f node s).1.height ≤ node.height) (tree : Node)
    (s : σ) : ∃ calls result s',
      Visits kind f [tree] s calls [result] s' ∧
      (∀ depth, tree.height ≤ depth → rewriteKind kind f depth tree s = (result, s') ∧
        rewriteKind kind (recorded f) depth tree (s, []) = (result, (s', calls))) ∧
      calls.length = countKind kind result ∧
      ∀ i left s₁, calls[i]? = some (left, s₁) → ∃ inner later children s₂,
        calls.drop (i + 1) = inner ++ later ∧ Visits kind f left.childList s₁ inner children s₂ ∧
        (ofKindIn kind result)[i]? =
          some { left with children := left.children.map fun _ => children } := by
  obtain ⟨calls, news, s', visits⟩ := Visits.exists_of_height_le height_le
    (List.forall_mem_singleton.mpr (Nat.le_refl tree.height)) s
  obtain ⟨result, rfl⟩ := List.length_eq_one_iff.mp visits.length_eq
  have same := visits.matches kind_eq
  rw [List.flatMap_singleton] at same
  refine ⟨calls, result, s', visits, fun depth enough => ⟨?_, ?_⟩, same.length_eq, ?_⟩
  · exact visits.rewriteKind_eq height_le enough
  · obtain ⟨_, record⟩ := visits.recorded []
    have lower : ∀ node record, node.kind = kind →
        (recorded f node record).1.height ≤ node.height := fun node record => height_le node record.1
    exact record.rewriteKind_eq lower enough
  · exact fun i left s₁ known => same.exists_of_getElem? known

def twice (node : Node) (count : Nat) : Node × Nat :=
  ({ node with children := node.children.map fun nodes => nodes ++ nodes }, count + 1)

theorem height_twice (node : Node) (count : Nat) : (twice node count).1.height = node.height := by
  obtain ⟨kind, children, value, url, label, position, data, rest⟩ := node
  cases children with
  | none => rfl
  | some nodes =>
    have same : heightOfList (nodes ++ nodes) = heightOfList nodes := by
      refine Nat.le_antisymm (heightOfList_le_iff.mpr ?_) (heightOfList_le_iff.mpr ?_)
      · exact fun node member => height_le_heightOfList ((or_self_iff).mp (List.mem_append.mp member))
      · exact fun node member => height_le_heightOfList (List.mem_append_left _ member)
    exact congrArg (· + 1) same

/-- A walk whose calls add further nodes of the kind. The inner quote is walked twice. -/
theorem rewriteKind_calls_twice :
    let tree := parent .blockquote [parent .blockquote [text "a"]]
    (∀ node count, node.kind = .blockquote → (twice node count).1.kind = .blockquote) ∧
      (∀ node count, node.kind = .blockquote → (twice node count).1.height ≤ node.height) ∧
      ∃ calls result, Visits .blockquote twice [tree] 0 calls [result] 3 ∧ calls.length = 3 ∧
        countKind .blockquote result = 3 := by
  intro tree
  have kind_eq : ∀ node count, node.kind = .blockquote →
      (twice node count).1.kind = .blockquote := fun _ _ same => same
  have height_le : ∀ node count, node.kind = .blockquote →
      (twice node count).1.height ≤ node.height := fun node count _ =>
    Nat.le_of_eq (height_twice node count)
  obtain ⟨calls, result, count, visits, walks, length, -⟩ :=
    rewriteKind_calls kind_eq height_le tree 0
  have walked : rewriteKind .blockquote twice 3 tree 0 = (result, count) := (walks 3 (by decide)).1
  obtain ⟨rfl, rfl⟩ : (rewriteKind .blockquote twice 3 tree 0).1 = result ∧ 3 = count :=
    Prod.mk.inj walked
  exact ⟨kind_eq, height_le, calls, _, visits, length, rfl⟩

end PageTree.Node
