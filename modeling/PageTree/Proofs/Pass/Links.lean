import PageTree.Proofs.Pass.Settled
import PageTree.Proofs.Tree.Noted

/-!
What the link pass does to a tree. Only links change, each by its own address: one to another site
is marked as external, and any other that is neither empty nor a place on the same page is replaced
where the page and a function for addresses are known. The pass counts the links that it changes,
and of the context it sees nothing but the page and the function.
-/

namespace PageTree.LinkPass

open Json (Fields)
open Node (Counts Walked)

/-- An address on another site. -/
def Web (url : String) : Prop :=
  "http://".toList <+: url.toList ∨ "https://".toList <+: url.toList

/-- An address that leads nowhere or to a place on the same page. -/
def Still (url : String) : Prop := url = "" ∨ "#".toList <+: url.toList

/-- What a context makes addresses with: its function, and the page if it is named. -/
def Makes (context : PageContext) (make : String → String → String) (id : String) : Prop :=
  context.relativeUrl = some make ∧ context.id = some id ∧ id ≠ ""

/-- The step of the pass on one node; a link that is changed is noted. -/
inductive Processes (context : PageContext) : Node → Node → List Node → Prop
  | other {node : Node} (kind : node.kind ≠ .link) : Processes context node node []
  | absent {node : Node} (kind : node.kind = .link) (none : node.url = none) :
      Processes context node node []
  | still {node : Node} {url : String} (kind : node.kind = .link) (known : node.url = some url)
      (still : Still url) : Processes context node node []
  | external {node : Node} {url : String} {properties : Fields} (kind : node.kind = .link)
      (known : node.url = some url) (web : Web url)
      (sets : Fields.Sets "rel" (.str "external") (node.dataOrEmpty.properties.getD []) properties) :
      Processes context node
        { node with data := some { node.dataOrEmpty with properties := some properties } } [node]
  | relative {node : Node} {url id : String} {make : String → String → String}
      (kind : node.kind = .link) (known : node.url = some url) (moves : ¬ Still url)
      (inside : ¬ Web url) (makes : Makes context make id) :
      Processes context node { node with url := some (make url id) } [node]
  | alone {node : Node} {url : String} (kind : node.kind = .link) (known : node.url = some url)
      (moves : ¬ Still url) (inside : ¬ Web url) (lacks : ∀ make id, ¬ Makes context make id) :
      Processes context node node []

theorem isWeb_toList_iff {url : String} : LinkTarget.isWeb url.toList = true ↔ Web url := by
  rw [LinkTarget.isWeb_iff, List.exists_mem_cons_iff, Web]
  simp only [List.mem_singleton, exists_eq_left]

theorem relativize?_eq_some_iff {context : PageContext} {url relative : String} :
    context.relativize? url = some relative ↔
      ∃ make id, Makes context make id ∧ make url id = relative := by
  simp only [PageContext.relativize?_eq_some_iff, PageContext.pageId?_eq_some_iff, Makes,
    and_assoc]

theorem target_cases (url : String) :
    (LinkTarget.of? url.toList = none ∧ url = "") ∨
      (LinkTarget.of? url.toList = some (.external url.toList) ∧ Web url) ∨
      (∃ anchor, LinkTarget.of? url.toList = some (.fragment anchor) ∧ "#".toList <+: url.toList) ∨
      LinkTarget.of? url.toList = some (.site url.toList) ∧ ¬ Still url ∧ ¬ Web url := by
  unfold LinkTarget.of?
  by_cases empty : url = ""
  · subst empty
    exact Or.inl ⟨rfl, rfl⟩
  have notNil : url.toList ≠ [] := mt String.toList_eq_nil_iff.mp empty
  rw [if_neg notNil]
  by_cases web : Web url
  · rw [if_pos (isWeb_toList_iff.mpr web)]
    exact Or.inr (Or.inl ⟨rfl, web⟩)
  rw [if_neg (mt isWeb_toList_iff.mp web)]
  right
  right
  split
  · next anchor same => exact Or.inl ⟨anchor, rfl, anchor, same.symm⟩
  · next other =>
    refine Or.inr ⟨rfl, fun still => ?_, web⟩
    rcases still with none | ⟨anchor, same⟩
    · exact empty none
    · exact other anchor same.symm

theorem counts_step (context : PageContext) {node : Node} (kind : node.kind = .link) :
    Counts (Processes context) (step context) node := by
  intro count
  cases known : node.url with
  | none =>
    refine ⟨[], ?_⟩
    simp only [step, process, known]
    exact ⟨.absent kind known, rfl⟩
  | some url =>
    rcases target_cases url with ⟨target, empty⟩ | ⟨target, web⟩ | ⟨anchor, target, here⟩ |
      ⟨target, moves, inside⟩
    · refine ⟨[], ?_⟩
      simp only [step, process, known, target]
      exact ⟨.still kind known (Or.inl empty), rfl⟩
    · refine ⟨[node], ?_⟩
      simp only [step, process, known, target]
      exact ⟨.external kind known web (Fields.sets_put _ _ _), rfl⟩
    · refine ⟨[], ?_⟩
      simp only [step, process, known, target]
      exact ⟨.still kind known (Or.inr here), rfl⟩
    · cases made : context.relativize? url with
      | none =>
        refine ⟨[], ?_⟩
        simp only [step, process, known, target, made]
        refine ⟨.alone kind known moves inside fun make id makes => ?_, rfl⟩
        cases made.symm.trans (relativize?_eq_some_iff.mpr ⟨make, id, makes, rfl⟩)
      | some relative =>
        obtain ⟨make, id, makes, rfl⟩ := relativize?_eq_some_iff.mp made
        refine ⟨[node], ?_⟩
        simp only [step, process, known, target, made]
        exact ⟨.relative kind known moves inside makes, rfl⟩

theorem walked_apply (context : PageContext) (tree : Node) : ∃ changed,
    Walked (Processes context) tree (apply context tree).1 changed ∧
      (apply context tree).2 = changed.length :=
  Node.walked_rewriteKind (fun _ other => .other other) (fun _ => counts_step context)
    (fun node _ => (local_process context).height_le node) tree

theorem eq_self_of_not_changed {context : PageContext} {tree : Node}
    (none : (apply context tree).2 = 0) : (apply context tree).1 = tree := by
  obtain ⟨changed, walked, count⟩ := walked_apply context tree
  refine walked.eq_self ?_ (List.length_eq_zero_iff.mp (count.symm.trans none))
  intro node left here
  cases here <;> rfl

theorem process_congr {context other : PageContext} (page : other.pageId? = context.pageId?)
    (relativeUrl : other.relativeUrl = context.relativeUrl) : process other = process context := by
  funext node
  have same : ∀ url, other.relativize? url = context.relativize? url := by
    intro url
    rw [PageContext.relativize?, PageContext.relativize?, page, relativeUrl]
  simp only [process, same]

/-- The pass changes the links that lead to other sites and those that it can make relative, each by
its own address, and leaves all else as it is. It counts the links that it changes. Contexts with
the same page and the same function for addresses do not differ for it. -/
theorem apply_processes (context : PageContext) (tree : Node) :
    (∃ changed, Walked (Processes context) tree (apply context tree).1 changed ∧
        (apply context tree).2 = changed.length) ∧
      ((apply context tree).2 = 0 → (apply context tree).1 = tree) ∧
      ∀ other : PageContext, other.pageId? = context.pageId? →
        other.relativeUrl = context.relativeUrl → apply other tree = apply context tree := by
  refine ⟨walked_apply context tree, eq_self_of_not_changed, fun other page relativeUrl => ?_⟩
  have same : step other = step context := by
    funext node count
    rw [step, step, process_congr page relativeUrl]
  rw [apply, apply, same]

/-- A link to another site inside one that is made relative, and a link that stays. -/
theorem apply_processes_nested :
    let context : PageContext := { id := some "docs", relativeUrl := some fun url id => url ++ id }
    let other : PageContext := { context with isDocs := true, parents := ["site"] }
    let tree := Node.root [.link "/a?from=" [.link "http://b" []]]
    let still := Node.root [.link "#c" []]
    (other.pageId? = context.pageId? ∧ other.relativeUrl = context.relativeUrl ∧
      apply other tree = apply context tree ∧ (apply context tree).2 = 2) ∧
      (apply context still).2 = 0 ∧ (apply context still).1 = still := by
  intro context other tree still
  obtain ⟨-, -, same⟩ := apply_processes context tree
  obtain ⟨-, unchanged, -⟩ := apply_processes context still
  exact ⟨⟨rfl, rfl, same other rfl rfl, rfl⟩, rfl, unchanged rfl⟩

end PageTree.LinkPass
