import Mathlib.Data.List.Chain
import PageTree.Proofs.Markdown.Adding
import PageTree.Proofs.Tree.Everywhere

/-!
The texts in a tree that is being built. Whatever events come, and in whatever order, no two texts stand
side by side in a list of children and no text is empty: a text that follows a text joins it, and all
else that is added is no text, since no tag opens one.
-/

namespace PageTree

def Node.IsFilled (node : Node) : Prop := ∃ content, node.value = some content ∧ content ≠ ""

/-- Children whose texts are whole: no two stand side by side, and none is empty. -/
structure WholeTexts (nodes : List Node) : Prop where
  apart : nodes.IsChain fun first second => first.kind = .text → second.kind ≠ .text
  filled : ∀ node ∈ nodes, node.kind = .text → node.IsFilled

def Node.Whole (node : Node) : Prop := node.Everywhere fun node => WholeTexts node.childList

namespace WholeTexts

theorem nil : WholeTexts [] := ⟨.nil, nofun⟩

theorem concat_iff {nodes : List Node} {node : Node} : WholeTexts (nodes ++ [node]) ↔
    WholeTexts nodes ∧ (node.kind = .text → node.IsFilled) ∧
      ∀ last ∈ nodes.getLast?, last.kind = .text → node.kind ≠ .text := by
  constructor
  · intro whole
    obtain ⟨front, -, joint⟩ := List.isChain_append.mp whole.apart
    obtain ⟨each, own⟩ := List.forall_mem_append.mp whole.filled
    exact ⟨⟨front, each⟩, own node List.mem_cons_self, fun last isLast => joint last isLast node rfl⟩
  · rintro ⟨whole, own, joint⟩
    constructor
    · refine List.isChain_append.mpr ⟨whole.apart, .singleton node, ?_⟩
      rintro last isLast _ ⟨⟩
      exact joint last isLast
    · exact List.forall_mem_append.mpr ⟨whole.filled, List.forall_mem_singleton.mpr own⟩

theorem concat {nodes : List Node} (whole : WholeTexts nodes) {node : Node}
    (kind : node.kind ≠ .text) : WholeTexts (nodes ++ [node]) :=
  concat_iff.mpr ⟨whole, fun isText => absurd isText kind, fun _ _ _ => kind⟩

end WholeTexts

namespace Node

theorem whole_iff {node : Node} :
    node.Whole ↔ WholeTexts node.childList ∧ ∀ child ∈ node.childList, child.Whole := everywhere_iff

theorem whole_of_leaf {node : Node} (leaf : node.childList = []) : node.Whole :=
  whole_iff.mpr (leaf ▸ ⟨.nil, nofun⟩)

theorem Whole.of_childList {node other : Node} (whole : node.Whole)
    (same : other.childList = node.childList) : other.Whole :=
  whole_iff.mpr (same ▸ whole_iff.mp whole)

end Node

end PageTree

namespace PageTree.Markdown

namespace TreeBuilder

theorem joinText_text (text : Node) {last : Node} (isText : last.kind = .text) {content : String}
    (known : last.value = some content) : ∃ joined, joinText text [last] = [joined] ∧
      joined.kind = .text ∧ joined.value = some (content ++ text.value.getD "") ∧
      joined.childList = last.childList := by
  simp only [joinText, isText, known]
  exact ⟨_, rfl, rfl, rfl, rfl⟩

theorem whole_joinText {text : Node} (filled : text.IsFilled) (own : text.Whole)
    {nodes : List Node} (whole : WholeTexts nodes) (each : ∀ node ∈ nodes, node.Whole) :
    WholeTexts (joinText text nodes) ∧ ∀ node ∈ joinText text nodes, node.Whole := by
  rcases List.eq_nil_or_concat' nodes with rfl | ⟨front, last, rfl⟩
  · exact ⟨WholeTexts.concat_iff.mpr ⟨.nil, fun _ => filled, nofun⟩, List.forall_mem_singleton.mpr own⟩
  · obtain ⟨before, lastFilled, joint⟩ := WholeTexts.concat_iff.mp whole
    obtain ⟨others, lastWhole⟩ := List.forall_mem_append.mp each
    by_cases isText : last.kind = .text
    · obtain ⟨content, known, some⟩ := lastFilled isText
      obtain ⟨joined, same, joinedKind, value, children⟩ := joinText_text text isText known
      have joinedFilled : joined.IsFilled := ⟨_, value, by simp [some]⟩
      have joinedWhole := (lastWhole last List.mem_cons_self).of_childList children
      -- The text before the last node cannot be one, so the joined text has no text beside it.
      rw [joinText_concat, same]
      refine ⟨WholeTexts.concat_iff.mpr ⟨before, fun _ => joinedFilled, ?_⟩,
        List.forall_mem_append.mpr ⟨others, List.forall_mem_singleton.mpr joinedWhole⟩⟩
      exact fun other isLast otherText => absurd isText (joint other isLast otherText)
    · have apart : ∀ other ∈ (front ++ [last]).getLast?, other.kind ≠ .text := by
        simpa using isText
      rw [joinText_of_getLast? apart]
      refine ⟨WholeTexts.concat_iff.mpr ⟨whole, fun _ => filled, ?_⟩,
        List.forall_mem_append.mpr ⟨each, List.forall_mem_singleton.mpr own⟩⟩
      exact fun other isLast otherText => absurd otherText (apart other isLast)

theorem kind_fitToChildren (node : Node) : (fitToChildren node).kind = node.kind := by
  unfold fitToChildren
  split <;> rfl

theorem childList_fitToChildren (node : Node) :
    (fitToChildren node).childList = node.childList := by
  unfold fitToChildren
  split <;> rfl

/-- A builder that holds whole texts only. No open element is a text, so that none becomes one when it
closes. -/
structure Whole (b : TreeBuilder) : Prop where
  stack : ∀ node ∈ b.stack, node.kind ≠ .text ∧ node.Whole
  roots : (Node.root b.roots).Whole

namespace Whole

variable {b : TreeBuilder} (whole : b.Whole)

include whole

theorem content : WholeTexts b.content ∧ ∀ node ∈ b.content, node.Whole := by
  unfold TreeBuilder.content
  split
  · next top outer stands =>
    have own := whole.stack top (stands ▸ List.mem_cons_self)
    exact Node.whole_iff.mp own.2
  · exact Node.whole_iff.mp whole.roots

theorem withContent {nodes : List Node} (texts : WholeTexts nodes)
    (each : ∀ node ∈ nodes, node.Whole) : (b.withContent nodes).Whole := by
  unfold TreeBuilder.withContent
  split
  · next top outer stands =>
    obtain ⟨own, others⟩ := List.forall_mem_cons.mp (stands ▸ whole.stack)
    have changed : ({ top with children := some nodes } : Node).Whole :=
      Node.whole_iff.mpr ⟨texts, each⟩
    exact ⟨List.forall_mem_cons.mpr ⟨⟨own.1, changed⟩, others⟩, whole.roots⟩
  · exact ⟨whole.stack, Node.whole_iff.mpr ⟨texts, each⟩⟩

theorem addNode {node : Node} (kind : node.kind ≠ .text) (own : node.Whole) :
    (b.addNode node).Whole := by
  obtain ⟨texts, each⟩ := whole.content
  rw [addNode_eq]
  exact whole.withContent (texts.concat kind)
    (List.forall_mem_append.mpr ⟨each, List.forall_mem_singleton.mpr own⟩)

theorem addLeaf {node : Node} (kind : node.kind ≠ .text) (leaf : node.childList = []) (span : Span) :
    (b.addLeaf node span).Whole := whole.addNode kind (Node.whole_of_leaf leaf)

theorem openNode {node : Node} (kind : node.kind ≠ .text) (leaf : node.childList = []) (span : Span) :
    (b.openNode node span).Whole :=
  ⟨List.forall_mem_cons.mpr ⟨⟨kind, Node.whole_of_leaf leaf⟩, whole.stack⟩, whole.roots⟩

theorem addTop {top : Node} {outer : List Node} (stands : b.stack = top :: outer)
    {implicit : Option Nat} {node : Node} (kind : top.kind ≠ .text → node.kind ≠ .text)
    (own : top.Whole → node.Whole) :
    ({ b with stack := outer, implicit := implicit }.addNode node).Whole := by
  obtain ⟨first, others⟩ := List.forall_mem_cons.mp (stands ▸ whole.stack)
  have outside : Whole { b with stack := outer, implicit := implicit } := ⟨others, whole.roots⟩
  exact outside.addNode (kind first.1) (own first.2)

theorem openImplicit (span : Span) : (b.openImplicit span).Whole := by
  have opened : (b.openNode (Node.paragraph []) span).Whole :=
    whole.openNode Kind.noConfusion rfl span
  unfold TreeBuilder.openImplicit
  split
  · exact ⟨opened.stack, opened.roots⟩
  · exact whole

theorem closeImplicit : b.closeImplicit.Whole := by
  unfold TreeBuilder.closeImplicit
  split
  · exact whole
  · dsimp only
    split
    · next top outer stands =>
      split
      · exact whole.addTop stands (fun apart => (kind_fitToChildren top).trans_ne apart)
          fun own => own.of_childList (childList_fitToChildren top)
      · exact ⟨whole.stack, whole.roots⟩
    · exact ⟨whole.stack, whole.roots⟩

theorem close (kind : TagKind) : (b.close kind).Whole := by
  unfold TreeBuilder.close
  split
  · exact whole
  · next node outer stands =>
    refine whole.addTop stands (fun apart => ?_) fun own => ?_
    · split <;> exact apart
    · split
      · exact Node.whole_of_leaf rfl
      · exact own

theorem appendValue? {content : String} {result : TreeBuilder}
    (appended : b.appendValue? content = some result) : result.Whole := by
  unfold TreeBuilder.appendValue? at appended
  split at appended
  · next top outer stands =>
    obtain ⟨first, others⟩ := List.forall_mem_cons.mp (stands ▸ whole.stack)
    obtain ⟨value, -, rfl⟩ := Option.map_eq_some_iff.mp appended
    exact ⟨List.forall_mem_cons.mpr ⟨⟨first.1, first.2.of_childList rfl⟩, others⟩, whole.roots⟩
  · cases appended

theorem addText (content : String) (span : Span) : (b.addText content span).Whole := by
  unfold TreeBuilder.addText
  split
  · exact whole
  · next some =>
    split
    · next appended => exact whole.appendValue? appended
    · have filled : (b.place (Node.text content) span).IsFilled :=
        ⟨content, rfl, fun none => some (String.isEmpty_iff.mpr none)⟩
      obtain ⟨texts, each⟩ := whole.content
      obtain ⟨joined, eachJoined⟩ := whole_joinText filled (Node.whole_of_leaf rfl) texts each
      have added := whole.withContent joined eachJoined
      obtain ⟨index, stack, roots, implicit⟩ := b
      cases stack <;> exact added

theorem addHtml (content : String) (span : Span) : (b.addHtml content span).Whole := by
  unfold TreeBuilder.addHtml
  cases appended : b.appendValue? content with
  | none => exact whole.addLeaf Kind.noConfusion rfl span
  | some result => exact whole.appendValue? appended

theorem checkItem (checked : Bool) :
    Whole { b with stack := TreeBuilder.checkItem checked b.stack } := by
  have marks : ∀ node : Node, node.kind ≠ .text ∧ node.Whole →
      (node.withField "checked" (.bool checked)).kind ≠ .text ∧
        (node.withField "checked" (.bool checked)).Whole :=
    fun _ own => ⟨own.1, own.2.of_childList rfl⟩
  exact ⟨forall_mem_checkItem marks whole.stack, whole.roots⟩

theorem apply (event : Event) (span : Span) : (b.apply event span).Whole := by
  cases event with
  | start tag => exact whole.openNode tag.fields_node.2.1 tag.childList_node span
  | stop kind => exact whole.close kind
  | text content => exact whole.addText content span
  | html content | inlineHtml content => exact whole.addHtml content span
  | softBreak => exact whole.addText "\n" span
  | task checked => exact whole.checkItem checked
  | _ => exact whole.addLeaf Kind.noConfusion rfl span

theorem step (event : Event) (span : Span) : (b.step event span).Whole := by
  unfold TreeBuilder.step
  dsimp only
  split
  · exact (whole.openImplicit span).apply event span
  · split
    · exact whole.closeImplicit.apply event span
    · exact whole.apply event span

theorem run (events : List (Event × Span)) : (b.run events).Whole := by
  induction events generalizing b with
  | nil => exact whole
  | cons event events ih => exact ih (whole.step event.1 event.2)

end Whole

/-- After any events at all, the children of each element, open or finished, and the finished nodes
outside of all elements have whole texts, and so has the tree that is made of them. -/
theorem run_wholeTexts (text : String) (events : List (Event × Span)) :
    let b := (TreeBuilder.mk (LineIndex.ofText text) [] [] none).run events
    (∀ node ∈ b.stack, node.Everywhere fun node => WholeTexts node.childList) ∧
      WholeTexts b.roots ∧
      (∀ node ∈ b.roots, node.Everywhere fun node => WholeTexts node.childList) ∧
      (treeOfEvents text events).Everywhere fun node => WholeTexts node.childList := by
  intro b
  have empty : Whole ⟨LineIndex.ofText text, [], [], none⟩ := ⟨nofun, Node.whole_of_leaf rfl⟩
  have whole : b.Whole := empty.run events
  obtain ⟨texts, each⟩ := Node.whole_iff.mp whole.roots
  have tree : (treeOfEvents text events).Whole := whole.roots.of_childList rfl
  exact ⟨fun node member => (whole.stack node member).2, texts, each, tree⟩

end TreeBuilder

end PageTree.Markdown
