import Mathlib.Data.List.Basic
import PageTree.Pass.Transformer
import PageTree.Proofs.Tree.Walk

/-!
What the rewrite of a node can see. Each pass looks at the fields of a node of its own kind and, of
the children, at no more than their kinds, values and labels. A rewrite that leaves these alone and
does not touch bare texts and bare markup is not noticed by the rewrite of the parent.
-/

namespace PageTree

open Node (overChildren overChildren_of_none heightOfList heightOfList_le_iff height_eq
  height_lt_of_mem Rewrite)

/-- A rewrite that keeps what a rewrite of the parent looks at. -/
structure Node.Discreet (f : Node → Node) : Prop where
  kind : ∀ node, (f node).kind = node.kind
  value : ∀ node, (f node).value = node.value
  label : ∀ node, (f node).label = node.label
  unplaced : ∀ node : Node, f { node with position := none } = { f node with position := none }
  text : ∀ value, f (Node.text value) = Node.text value
  html : ∀ value, f (Node.html value) = Node.html value

/-- A rewrite that is discreet itself and does not see a discreet rewrite of the children. -/
structure Node.Local (f : Node → Node) : Prop where
  kind : ∀ node, (f node).kind = node.kind
  value : ∀ node, (f node).value = node.value
  label : ∀ node, (f node).label = node.label
  unplaced : ∀ node : Node, f { node with position := none } = { f node with position := none }
  height_le : ∀ node, (f node).height ≤ node.height
  overChildren : ∀ {g : Node → Node}, Discreet g → ∀ node,
    f (overChildren g node) = Node.overChildren g (f node)

namespace Node

theorem Discreet.walk {r : Rewrite} (discreet : Discreet r.apply) : Discreet r.walk where
  kind := fun node => by rw [r.walk_eq]; exact discreet.kind node
  value := fun node => by rw [r.walk_eq]; exact discreet.value node
  label := fun node => by rw [r.walk_eq]; exact discreet.label node
  unplaced := by
    intro node
    rw [r.walk_eq, r.walk_eq, discreet.unplaced]
    rfl
  text := by
    intro value
    rw [r.walk_eq, discreet.text]
    exact overChildren_of_none _ rfl
  html := by
    intro value
    rw [r.walk_eq, discreet.html]
    exact overChildren_of_none _ rfl

section OfKind

variable (kind : Kind) {f : Node → Node} (own : Local f)

include own

theorem Local.discreet_ofKind (notText : kind ≠ .text) (notHtml : kind ≠ .html) :
    Discreet (Rewrite.ofKind kind f own.height_le).apply where
  kind := by
    intro node
    simp only [Rewrite.ofKind]
    split
    · exact own.kind node
    · rfl
  value := by
    intro node
    simp only [Rewrite.ofKind]
    split
    · exact own.value node
    · rfl
  label := by
    intro node
    simp only [Rewrite.ofKind]
    split
    · exact own.label node
    · rfl
  unplaced := by
    intro node
    simp only [Rewrite.ofKind]
    split
    · exact own.unplaced node
    · rfl
  text := fun _ => if_neg (Ne.symm notText)
  html := fun _ => if_neg (Ne.symm notHtml)

theorem Local.ofKind_overChildren {g : Node → Node} (discreet : Discreet g) (node : Node) :
    (Rewrite.ofKind kind f own.height_le).apply (Node.overChildren g node) =
      Node.overChildren g ((Rewrite.ofKind kind f own.height_le).apply node) := by
  have same : (Node.overChildren g node).kind = node.kind := rfl
  simp only [Rewrite.ofKind, same]
  split
  · exact own.overChildren discreet node
  · rfl

end OfKind

theorem height_le_of_childList {node other : Node}
    (each : ∀ child ∈ node.childList, child.height ≤ heightOfList other.childList) :
    node.height ≤ other.height := by
  have lists := heightOfList_le_iff.mpr each
  rw [height_eq, height_eq other]
  omega

end Node

namespace HeadingPass

theorem leadingReference?_overChildren {f : Node → Node}
    (kind : ∀ node, (f node).kind = node.kind) (node : Node) :
    leadingReference? (overChildren f node) =
      (leadingReference? node).map fun found => (f found.1, found.2.map f) := by
  cases children : node.children with
  | none => simp [leadingReference?, overChildren, children]
  | some nodes =>
    cases nodes with
    | nil => simp [leadingReference?, overChildren, children]
    | cons first nodes =>
      cases nodes with
      | nil => simp [leadingReference?, overChildren, children]
      | cons second others =>
        simp only [leadingReference?, overChildren, children, Option.map_some, List.map_cons, kind]
        split <;> rfl

theorem childList_of_leadingReference? {node reference : Node} {others : List Node}
    (found : leadingReference? node = some (reference, others)) :
    node.childList = reference :: others := by
  unfold leadingReference? at found
  split at found
  · next first second rest children =>
    split at found
    · obtain ⟨rfl, rfl⟩ := Prod.mk.inj (Option.some.inj found)
      rw [Node.childList, children, Option.getD_some]
    · cases found
  · cases found

theorem leadingReference?_of_children {node first second : Node} {others : List Node}
    (children : node.children = some (first :: second :: others))
    (kind : first.kind = .linkReference) :
    leadingReference? node = some (first, second :: others) := by
  simp only [leadingReference?, children, if_pos kind]

theorem fields_normalize (node : Node) : (normalize node).1.kind = node.kind ∧
    (normalize node).1.value = node.value ∧ (normalize node).1.label = node.label := by
  unfold normalize
  split <;> exact ⟨rfl, rfl, rfl⟩

theorem local_normalize : Node.Local fun node => (normalize node).1 where
  kind := fun node => (fields_normalize node).1
  value := fun node => (fields_normalize node).2.1
  label := fun node => (fields_normalize node).2.2
  unplaced := by
    intro node
    have same : leadingReference? { node with position := none } = leadingReference? node := rfl
    unfold normalize
    rw [same]
    cases leadingReference? node <;> rfl
  height_le := by
    intro node
    unfold normalize
    split
    · next reference others found =>
      apply Node.height_le_of_childList
      intro child member
      rw [childList_of_leadingReference? found]
      exact Node.height_le_heightOfList (List.mem_cons_of_mem reference member)
    · exact Node.height_le_of_childList fun child member => Node.height_le_heightOfList member
  overChildren := by
    intro f discreet node
    unfold normalize
    rw [leadingReference?_overChildren discreet.kind]
    cases found : leadingReference? node with
    | none => rfl
    | some pair =>
      simp only [Option.map_some, discreet.label]
      rfl

end HeadingPass

namespace LinkPass

theorem process_cases (context : PageContext) (url : Option String) :
    (∀ node : Node, node.url = url → (process context node).1 = node) ∨
      (∀ node : Node, node.url = url →
        (process context node).1 = node.putProperty "rel" (.str "external")) ∨
      ∃ relative : String, ∀ node : Node, node.url = url →
        (process context node).1 = { node with url := some relative } := by
  cases url with
  | none =>
    left
    intro node same
    rw [process, same]
  | some url =>
    cases target : LinkTarget.of? url.toList with
    | none =>
      left
      intro node same
      simp only [process, same, target]
    | some target' =>
      cases target' with
      | external _ =>
        right
        left
        intro node same
        simp only [process, same, target]
      | fragment _ =>
        left
        intro node same
        simp only [process, same, target]
      | site _ =>
        cases relative : context.relativize? url with
        | none =>
          left
          intro node same
          simp only [process, same, target, relative]
        | some relative' =>
          right
          right
          refine ⟨relative', fun node same => ?_⟩
          simp only [process, same, target, relative]

theorem fields_process (context : PageContext) (node : Node) :
    (process context node).1.kind = node.kind ∧ (process context node).1.value = node.value ∧
      (process context node).1.label = node.label := by
  rcases process_cases context node.url with keeps | marks | ⟨relative, sets⟩
  · rw [keeps node rfl]
    exact ⟨rfl, rfl, rfl⟩
  · rw [marks node rfl]
    exact ⟨rfl, rfl, rfl⟩
  · rw [sets node rfl]
    exact ⟨rfl, rfl, rfl⟩

theorem local_process (context : PageContext) :
    Node.Local fun node => (process context node).1 where
  kind := fun node => (fields_process context node).1
  value := fun node => (fields_process context node).2.1
  label := fun node => (fields_process context node).2.2
  unplaced := by
    intro node
    rcases process_cases context node.url with keeps | marks | ⟨relative, sets⟩
    · rw [keeps node rfl, keeps { node with position := none } rfl]
    · rw [marks node rfl, marks { node with position := none } rfl]
      rfl
    · rw [sets node rfl, sets { node with position := none } rfl]
  height_le := by
    intro node
    rcases process_cases context node.url with keeps | marks | ⟨relative, sets⟩
    · exact Nat.le_of_eq (congrArg Node.height (keeps node rfl))
    · rw [marks node rfl]
      exact Node.height_le_of_childList fun child member => Node.height_le_heightOfList member
    · rw [sets node rfl]
      exact Node.height_le_of_childList fun child member => Node.height_le_heightOfList member
  overChildren := by
    intro f _ node
    rcases process_cases context node.url with keeps | marks | ⟨relative, sets⟩
    · rw [keeps node rfl, keeps (overChildren f node) rfl]
    · rw [marks node rfl, marks (overChildren f node) rfl]
      rfl
    · rw [sets node rfl, sets (overChildren f node) rfl]
      rfl

end LinkPass

namespace EntityPass

theorem hasEntity_eq {node other : Node} (kind : node.kind = other.kind)
    (value : node.value = other.value) : hasEntity node = hasEntity other := by
  rw [hasEntity, hasEntity, kind, value]

theorem bare_of_mem_splitText {value : String} {piece : Node} (member : piece ∈ splitText value) :
    ∃ text, piece = Node.text text ∨ piece = Node.html text := by
  obtain ⟨token, -, inToken⟩ := List.mem_flatMap.mp member
  rw [ofToken, List.mem_append] at inToken
  rcases inToken with plain | entity
  · split at plain
    · cases plain
    · exact ⟨_, Or.inl (List.mem_singleton.mp plain)⟩
  · obtain ⟨found, -, same⟩ := Option.map_eq_some_iff.mp (Option.mem_toList.mp entity)
    exact ⟨_, Or.inr same.symm⟩

theorem map_splitText {f : Node → Node} (discreet : Node.Discreet f) (value : String) :
    (splitText value).map f = splitText value := by
  have same : ∀ piece ∈ splitText value, f piece = id piece := by
    intro piece member
    obtain ⟨text, isText | isHtml⟩ := bare_of_mem_splitText member
    · rw [isText, discreet.text, id_eq]
    · rw [isHtml, discreet.html, id_eq]
  rw [List.map_congr_left same, List.map_id]

theorem rebuildChild_map {f : Node → Node} (discreet : Node.Discreet f) (child : Node) :
    rebuildChild (f child) = (rebuildChild child).map f := by
  have same := hasEntity_eq (discreet.kind child) (discreet.value child)
  rw [rebuildChild, rebuildChild, same, discreet.value]
  split
  · exact (map_splitText discreet _).symm
  · rw [List.map_singleton, discreet.unplaced, ← discreet.value]

theorem any_hasEntity_map {f : Node → Node} (discreet : Node.Discreet f) (nodes : List Node) :
    (nodes.map f).any hasEntity = nodes.any hasEntity := by
  rw [List.any_map]
  congr 1
  funext node
  exact hasEntity_eq (discreet.kind node) (discreet.value node)

theorem height_rebuildChild_le {child piece : Node} (member : piece ∈ rebuildChild child) :
    piece.height ≤ child.height := by
  rw [rebuildChild] at member
  split at member
  · have bare : piece.height = 1 := by
      obtain ⟨text, rfl | rfl⟩ := bare_of_mem_splitText member <;> rfl
    rw [bare, height_eq]
    omega
  · rw [List.mem_singleton.mp member]
    exact Node.height_le_of_childList fun other inside => Node.height_le_heightOfList inside

theorem fields_encode (node : Node) : (encode node).1.kind = node.kind ∧
    (encode node).1.value = node.value ∧ (encode node).1.label = node.label := by
  unfold encode
  split
  · exact ⟨rfl, rfl, rfl⟩
  · split <;> exact ⟨rfl, rfl, rfl⟩

theorem local_encode : Node.Local fun node => (encode node).1 where
  kind := fun node => (fields_encode node).1
  value := fun node => (fields_encode node).2.1
  label := fun node => (fields_encode node).2.2
  unplaced := by
    intro node
    cases children : node.children with
    | none => simp only [encode, children]
    | some nodes =>
      simp only [encode, children]
      split
      · rfl
      · rw [children]
  height_le := by
    intro node
    unfold encode
    split
    · exact Nat.le_refl _
    · next nodes children =>
      split
      · apply Node.height_le_of_childList
        intro piece member
        obtain ⟨child, inNodes, inside⟩ :=
          List.mem_flatMap.mp (show piece ∈ nodes.flatMap rebuildChild from member)
        have inList : child ∈ node.childList := by simpa [Node.childList, children] using inNodes
        exact Nat.le_trans (height_rebuildChild_le inside) (Node.height_le_heightOfList inList)
      · exact Nat.le_refl _
  overChildren := by
    intro f discreet node
    cases children : node.children with
    | none => simp only [encode, overChildren, children, Option.map_none]
    | some nodes =>
      have groups : (nodes.map f).flatMap rebuildChild = (nodes.flatMap rebuildChild).map f := by
        rw [List.flatMap_map, List.map_flatMap]
        exact List.flatMap_congr fun child _ => rebuildChild_map discreet child
      simp only [encode, overChildren, children, Option.map_some, any_hasEntity_map discreet,
        groups]
      split
      · rfl
      · rw [children, Option.map_some]

end EntityPass

end PageTree
