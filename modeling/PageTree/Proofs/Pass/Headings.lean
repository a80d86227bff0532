import PageTree.Proofs.Pass.Settled
import PageTree.Proofs.Tree.Noted

/-!
What the heading pass does to a tree. Each heading loses its identifiers and keeps its other hints
in their order. Only a heading that begins with a reference and has more content loses a child, and
its class is set to what the label of that child says. The pass counts these children, and with what
stands below them they are all that a tree loses.
-/

namespace PageTree.HeadingPass

open Json (Fields)
open Node (countKind Counts Walked)

/-- The class for a label: that of the level it spells, or an explicit null. -/
inductive Classes : Option String → Json → Prop
  | level {n : Nat} (low : 1 ≤ n) (high : n ≤ 6) :
      Classes (some (toString n)) (.str ("display-" ++ toString n))
  | unknown {label : Option String} (other : ∀ n, 1 ≤ n → n ≤ 6 → label ≠ some (toString n)) :
      Classes label .null

def otherAttributes (node : Node) : Fields :=
  (node.dataOrEmpty.properties.getD []).filter fun field => field.1 ≠ "id"

/-- A node with the given attributes, no identifier in its hints, and the other hints it had. -/
def withAttributes (node : Node) (properties : Fields) : Node :=
  { node with
    data := some { id := none, properties := some properties, rest := node.dataOrEmpty.rest } }

/-- The step of the pass on one node; the reference that a heading loses is noted. -/
inductive Normalizes : Node → Node → List Node → Prop
  | other {node : Node} (kind : node.kind ≠ .heading) : Normalizes node node []
  | cleared {node : Node} (kind : node.kind = .heading) (plain : ¬ HasLeadingReference node) :
      Normalizes node (withAttributes node (otherAttributes node)) []
  | classed {node reference next : Node} {others : List Node} {value : Json} {properties : Fields}
      (kind : node.kind = .heading) (children : node.children = some (reference :: next :: others))
      (leads : reference.kind = .linkReference) (classes : Classes reference.label value)
      (sets : Fields.Sets "class" value (otherAttributes node) properties) :
      Normalizes node { withAttributes node properties with children := some (next :: others) }
        [reference]

/-- A node whose hints and attributes are there and have no identifier. -/
def Anonymous (node : Node) : Prop := ∃ data properties, node.data = some data ∧ data.id = none ∧
  data.properties = some properties ∧ "id" ∉ properties.names

theorem classes_classValue (label : Option String) : Classes label (classValue label) := by
  have labels : ["1", "2", "3", "4", "5", "6"] = (List.range' 1 6).map toString := by decide
  have known : ∀ text : String, text ∈ ["1", "2", "3", "4", "5", "6"] ↔
      ∃ n, (1 ≤ n ∧ n ≤ 6) ∧ toString n = text := by
    intro text
    rw [labels, List.mem_map]
    refine exists_congr fun n => and_congr_left fun _ => ?_
    rw [List.mem_range'_1]
    omega
  cases label with
  | none => exact .unknown fun n _ _ same => by cases same
  | some text =>
    by_cases member : text ∈ ["1", "2", "3", "4", "5", "6"]
    · obtain ⟨n, ⟨low, high⟩, rfl⟩ := (known text).mp member
      have value : classValue (some (toString n)) = .str ("display-" ++ toString n) := by
        simp only [classValue, Option.bind_some, displayClass?, List.contains_iff_mem.mpr member,
          if_true]
      rw [value]
      exact .level low high
    · have value : classValue (some text) = .null := by
        have absent := mt List.contains_iff_mem.mp member
        simp only [classValue, Option.bind_some, displayClass?, if_neg absent]
      rw [value]
      refine .unknown fun n low high same => ?_
      exact member ((known text).mpr ⟨n, ⟨low, high⟩, (Option.some.inj same).symm⟩)

theorem counts_step {node : Node} (kind : node.kind = .heading) : Counts Normalizes step node := by
  intro count
  by_cases leads : HasLeadingReference node
  · obtain ⟨reference, next, others, children, isReference⟩ := leads
    have found := leadingReference?_of_children children isReference
    refine ⟨[reference], ?_⟩
    simp only [step, normalize, found]
    exact ⟨.classed kind children isReference (classes_classValue _) (Fields.sets_put _ _ _), rfl⟩
  · refine ⟨[], ?_⟩
    simp only [step, normalize_of_not_hasLeadingReference leads]
    exact ⟨.cleared kind leads, rfl⟩

theorem not_mem_names_otherAttributes (node : Node) : "id" ∉ (otherAttributes node).names := by
  intro member
  obtain ⟨field, inside, same⟩ := List.mem_map.mp member
  exact of_decide_eq_true (List.mem_filter.mp inside).2 same

namespace Normalizes

variable {node left : Node} {noted : List Node} (here : Normalizes node left noted)

include here

theorem anonymous (children : Option (List Node)) (kind : left.kind = .heading) :
    Anonymous { left with children } := by
  have absent := not_mem_names_otherAttributes node
  cases here with
  | other other => exact absurd kind other
  | cleared => exact ⟨_, _, rfl, rfl, rfl, absent⟩
  | classed _ _ _ _ sets =>
    refine ⟨_, _, rfl, rfl, rfl, fun member => ?_⟩
    exact (sets.mem_names member).elim (by decide) absent

theorem takes : left.kind = node.kind ∧ node.childList = noted ++ left.childList := by
  cases here with
  | classed _ children => exact ⟨rfl, by rw [Node.childList, children]; rfl⟩
  | _ => exact ⟨rfl, rfl⟩

theorem isReference_of_noted : ∀ note ∈ noted, note.kind = .linkReference := by
  cases here with
  | classed _ _ leads => exact List.forall_mem_singleton.mpr leads
  | _ => simp

end Normalizes

theorem walked_apply (tree : Node) : ∃ taken, Walked Normalizes tree (apply tree).1 taken ∧
    (apply tree).2 = taken.length :=
  Node.walked_rewriteKind (fun _ other => .other other) (fun _ => counts_step)
    (fun node _ => local_normalize.height_le node) tree

/-- The pass normalizes each heading and leaves every other node as it is. It counts the references
that it takes from headings; a tree loses these with what stands below them, and nothing else. No
heading in the result has an identifier. -/
theorem apply_normalizes (tree : Node) :
    (∃ taken, Walked Normalizes tree (apply tree).1 taken ∧ (apply tree).2 = taken.length ∧
      (∀ reference ∈ taken, reference.kind = .linkReference) ∧
      ∀ kind, countKind kind tree =
        countKind kind (apply tree).1 + (taken.flatMap (Node.ofKindIn kind)).length) ∧
      ∀ heading ∈ (apply tree).1.ofKindIn .heading, Anonymous heading := by
  obtain ⟨taken, walked, count⟩ := walked_apply tree
  have references := walked.forall_noted fun here => here.isReference_of_noted
  have everywhere := walked.everywhere (p := fun node => node.kind = .heading → Anonymous node)
    fun here children => here.anonymous children
  refine ⟨⟨taken, walked, count, references, fun kind => ?_⟩, ?_⟩
  · exact walked.countKind_eq kind fun here => here.takes
  · exact Node.everywhere_ofKind_iff.mp everywhere

/-- A heading that stands in the reference which another heading loses goes with it uncounted. -/
theorem apply_normalizes_nested :
    let inner := Node.heading 2 [.linkReference "7" [], .text "b"]
    let tree := Node.root [.heading 1 [.linkReference "3" [inner], inner, .text "a"]]
    let result := (apply tree).1
    (apply tree).2 = 2 ∧ countKind .heading tree = 3 ∧ countKind .heading result = 2 ∧
      ∃ heading ∈ result.ofKindIn .heading, heading.property? "class" = some .null ∧
        Anonymous heading := by
  intro inner tree result
  obtain ⟨-, anonymous⟩ := apply_normalizes tree
  refine ⟨rfl, rfl, rfl, _, List.mem_cons_of_mem _ List.mem_cons_self, rfl, ?_⟩
  exact anonymous _ (List.mem_cons_of_mem _ List.mem_cons_self)

end PageTree.HeadingPass
