import PageTree.Proofs.Markdown.Adding

/-!
The tree builder translates event trees. While it reads the events of a tree it touches nothing below
the element that was open before, and all that it does to that element is to add the part of the tree
and to mark items. This needs that no paragraph is open that the tree would close, except in an item:
there such a paragraph is open above the item exactly as long as a run of texts and inline nodes goes
on, and every event that opens or closes it is the first one of a tree in the item or the item's end.
-/

namespace PageTree.Markdown

open EventTree (eventsOf partsOf tasksOf rawText elementNode Proper)
open PageTree.Markdown.Part (joinTexts paragraphOf itemNodes)

namespace EventTree

theorem kind_elementNode (tag : Tag) (inside : List EventTree) (parts : List Part) :
    (elementNode tag inside parts).kind = tag.node.kind := by
  unfold elementNode checked
  split
  case h_4 => split <;> rfl
  all_goals rfl

theorem solid_part (tree : EventTree) : tree.part.Solid := by
  cases tree with
  | single event => cases event <;> simp [part, Part.ofEvent, Part.Solid, Node.ofKind,
      Node.literal, Node.html, Node.withField]
  | element tag inside =>
    have kind : (elementNode tag inside (partsOf inside)).kind ≠ .text := by
      rw [kind_elementNode]
      exact tag.fields_node.2.1
    rw [part]
    split
    · exact kind
    · exact kind

theorem solid_partsOf (trees : List EventTree) : ∀ part ∈ partsOf trees, part.Solid := by
  induction trees with
  | nil => exact nofun
  | cons tree trees ih =>
    rw [partsOf]
    exact List.forall_mem_cons.mpr ⟨tree.solid_part, ih⟩

end EventTree

theorem Event.not_beginsBlock_of_isInline {event : Event} (inline : event.isInline) :
    event.beginsBlock = false := by
  cases event <;> simp_all [isInline, beginsBlock]

theorem Event.isBlock_of_beginsBlock {event : Event} (block : event.beginsBlock) :
    event.isBlock := by
  cases event <;> first | exact block | exact absurd block Bool.false_ne_true

namespace TreeBuilder

theorem run_append (b : TreeBuilder) (events others : List (Event × Span)) :
    b.run (events ++ others) = (b.run events).run others := List.foldl_append

theorem run_cons (b : TreeBuilder) (event : Event) (span : Span) (events : List (Event × Span)) :
    b.run ((event, span) :: events) = (b.step event span).run events := rfl

/-- An event finds its parent open: the part of its tree goes right into the innermost element. -/
structure Ready (b : TreeBuilder) (event : Event) : Prop where
  value : ∀ top ∈ b.front, top.2 = none
  item : event.isInline → ∀ top ∈ b.front, top.1 ≠ .listItem
  block : event.beginsBlock → b.implicit = none

theorem ready_outside {b : TreeBuilder} (outside : b.stack = []) (closed : b.implicit = none)
    (event : Event) : b.Ready event := by
  have front : b.front = none := by rw [TreeBuilder.front, outside, List.head?_nil, Option.map_none]
  exact ⟨by simp [front], by simp [front], fun _ => closed⟩

theorem Ready.of_bare {b c : TreeBuilder} {event : Event} (ready : b.Ready event) {part : Part}
    {tasks : List Bool} (same : c.bare = (b.bare.add part).mark tasks) : c.Ready event := by
  have front : c.front = b.front := by
    rw [← front_bare c, same, front_mark, front_add, front_bare]
  have implicit : c.implicit = b.implicit := by
    have bare : c.bare.implicit = b.bare.implicit := by
      rw [same, implicit_mark, implicit_add]
    exact bare
  exact ⟨front ▸ ready.value, front ▸ ready.item, implicit ▸ ready.block⟩

theorem openImplicit_of_not_item {b : TreeBuilder}
    (plain : ∀ top ∈ b.front, top.1 ≠ .listItem) (span : Span) : b.openImplicit span = b := by
  obtain ⟨index, stack, roots, implicit⟩ := b
  cases stack with
  | nil => simp [openImplicit]
  | cons top outer =>
    have kind : top.kind ≠ .listItem := plain _ rfl
    simp [openImplicit, kind]

theorem openImplicit_of_open {b : TreeBuilder} (isOpen : b.implicit.isSome) (span : Span) :
    b.openImplicit span = b := by
  obtain ⟨depth, known⟩ := Option.isSome_iff_exists.mp isOpen
  simp [openImplicit, known]

theorem closeImplicit_of_none {b : TreeBuilder} (none : b.implicit = none) :
    b.closeImplicit = b := by
  rw [closeImplicit, none]

theorem openImplicit_openImplicit (b : TreeBuilder) (span : Span) :
    (b.openImplicit span).openImplicit span = b.openImplicit span := by
  by_cases opens : b.implicit.isNone && b.stack.head?.any fun top => top.kind = .listItem
  · have isOpen : (b.openImplicit span).implicit.isSome := by
      rw [openImplicit, if_pos opens]
      rfl
    exact openImplicit_of_open isOpen span
  · have same : b.openImplicit span = b := by rw [openImplicit, if_neg opens]
    rw [same, same]

theorem implicit_addNode (b : TreeBuilder) (node : Node) :
    (b.addNode node).implicit = b.implicit := implicit_add b (.block node)

theorem implicit_closeImplicit (b : TreeBuilder) : b.closeImplicit.implicit = none := by
  obtain ⟨index, stack, roots, implicit⟩ := b
  cases implicit with
  | none => rfl
  | some depth =>
    cases stack with
    | nil => rfl
    | cons top outer =>
      simp only [closeImplicit]
      split
      · exact implicit_addNode _ _
      · rfl

theorem run_openImplicit (b : TreeBuilder) {event : Event} (inline : event.isInline) (span : Span)
    (events : List (Event × Span)) :
    (b.openImplicit span).run ((event, span) :: events) = b.run ((event, span) :: events) := by
  rw [run_cons, run_cons, step, step, if_pos inline, if_pos inline, openImplicit_openImplicit]

theorem run_closeImplicit (b : TreeBuilder) {event : Event} (inline : event.isInline = false)
    (block : event.isBlock) (span : Span) (events : List (Event × Span)) :
    b.closeImplicit.run ((event, span) :: events) = b.run ((event, span) :: events) := by
  have still : b.closeImplicit.closeImplicit = b.closeImplicit :=
    closeImplicit_of_none (implicit_closeImplicit b)
  simp [run_cons, step, inline, block, still]

theorem Ready.step_eq {b : TreeBuilder} {event : Event} (ready : b.Ready event)
    (begins : event.isBlock → event.beginsBlock) (span : Span) :
    b.step event span = b.apply event span := by
  unfold step
  split
  · next inline => rw [openImplicit_of_not_item (ready.item inline)]
  · split
    · next block => rw [closeImplicit_of_none (ready.block (begins block))]
    · rfl

theorem exists_of_cons {event : Event} {later : List Event} {events : List (Event × Span)}
    (spells : events.map Prod.fst = event :: later) :
    ∃ span rest, events = (event, span) :: rest ∧ rest.map Prod.fst = later := by
  obtain ⟨⟨_, span⟩, rest, rfl, rfl, after⟩ := List.map_eq_cons_iff.mp spells
  exact ⟨span, rest, rfl, after⟩

theorem appendValue?_of_none {b : TreeBuilder} (plain : ∀ top ∈ b.front, top.2 = none)
    (content : String) : b.appendValue? content = none := by
  obtain ⟨index, stack, roots, implicit⟩ := b
  cases stack with
  | nil => rfl
  | cons top outer =>
    have value : top.value = none := plain _ rfl
    simp [appendValue?, value]

theorem addText_eq {b : TreeBuilder} (plain : ∀ top ∈ b.front, top.2 = none) (content : String)
    (span : Span) : b.addText content span = if content.isEmpty then b else
      b.withContent (joinText (b.place (Node.text content) span) b.content) := by
  rw [addText, appendValue?_of_none plain]
  obtain ⟨index, stack, roots, implicit⟩ := b
  cases stack <;> rfl

theorem bare_addText {b : TreeBuilder} (plain : ∀ top ∈ b.front, top.2 = none) (content : String)
    (span : Span) : (b.addText content span).bare = b.bare.add (.text content) := by
  rw [addText_eq plain, add]
  split
  · rfl
  · rw [bare_withContent, map_bare_joinText, bare_place, content_bare]
    rfl

theorem bare_addHtml {b : TreeBuilder} (plain : ∀ top ∈ b.front, top.2 = none) (content : String)
    (span : Span) : (b.addHtml content span).bare = b.bare.addNode (Node.html content) := by
  rw [addHtml, appendValue?_of_none plain, Option.getD_none, bare_addLeaf]
  rfl

theorem bare_mark (b : TreeBuilder) (tasks : List Bool) :
    (b.mark tasks).bare = b.bare.mark tasks := by
  induction tasks generalizing b with
  | nil => rfl
  | cons state tasks ih =>
    have one : (b.mark [state]).bare = b.bare.mark [state] := by
      simp [mark, bare, map_bare_checkItem]
    rw [mark_cons, ih, one, ← mark_cons]

/-- The builder takes the events of the tree as its part and its task boxes. -/
def Translates (tree : EventTree) : Prop :=
  ∀ (b : TreeBuilder) (events : List (Event × Span)), events.map Prod.fst = tree.events →
    b.Ready tree.first → (b.run events).bare = (b.bare.add tree.part).mark tree.tasks

theorem bare_apply {b : TreeBuilder} {event : Event} (single : event.isSingle)
    (ready : b.Ready event) (span : Span) : (b.apply event span).bare =
      (b.bare.add (EventTree.single event).part).mark (EventTree.single event).tasks := by
  cases event with
  | start tag => exact absurd single Bool.false_ne_true
  | stop kind => exact absurd single Bool.false_ne_true
  | text content => exact bare_addText ready.value content span
  | softBreak => exact bare_addText ready.value "\n" span
  | html content => exact bare_addHtml ready.value content span
  | inlineHtml content => exact bare_addHtml ready.value content span
  | task state => exact bare_mark b [state]
  | code content => exact bare_addLeaf b _ span
  | hardBreak => exact bare_addLeaf b _ span
  | rule => exact bare_addLeaf b _ span
  | footnoteReference label => exact bare_addLeaf b _ span
  | inlineMath content => exact bare_addLeaf b _ span
  | displayMath content => exact bare_addLeaf b _ span

theorem translates_single {event : Event} (single : event.isSingle) :
    Translates (.single event) := by
  intro b events spells ready
  obtain ⟨span, rest, rfl, after⟩ := exists_of_cons spells
  obtain rfl : rest = [] := List.map_eq_nil_iff.mp after
  have begins : event.isBlock → event.beginsBlock := by
    cases event <;> simp_all [Event.isBlock, Event.beginsBlock, Event.isSingle]
  calc (b.run [(event, span)]).bare = (b.step event span).bare := rfl
    _ = (b.apply event span).bare := congrArg bare (ready.step_eq begins span)
    _ = _ := bare_apply single ready span

theorem run_trees {trees : List EventTree} (each : ∀ tree ∈ trees, Translates tree)
    (b : TreeBuilder) {events : List (Event × Span)} (spells : events.map Prod.fst = eventsOf trees)
    (ready : ∀ tree ∈ trees, b.Ready tree.first) :
    (b.run events).bare = (b.bare.addAll (partsOf trees)).mark (tasksOf trees) := by
  induction trees generalizing b events with
  | nil =>
    obtain rfl : events = [] := List.map_eq_nil_iff.mp spells
    rfl
  | cons tree trees ih =>
    obtain ⟨own, others⟩ := List.forall_mem_cons.mp each
    obtain ⟨here, later⟩ := List.forall_mem_cons.mp ready
    obtain ⟨before, after, rfl, first, rest⟩ := List.map_eq_append_iff.mp spells
    have added := own b before first here
    calc (b.run (before ++ after)).bare = ((b.run before).run after).bare := by rw [run_append]
      _ = ((b.run before).bare.addAll (partsOf trees)).mark (tasksOf trees) :=
          ih others _ rest fun tree member => (later tree member).of_bare added
      _ = (b.bare.addAll (partsOf (tree :: trees))).mark (tasksOf (tree :: trees)) := by
          rw [added, addAll_mark, mark_mark]
          rfl

theorem Ready.step_start {b : TreeBuilder} {tag : Tag} (ready : b.Ready (.start tag)) (span : Span) :
    b.step (.start tag) span = b.push (b.place tag.node span) :=
  ready.step_eq (fun block => block) span

theorem bare_push (b : TreeBuilder) (node : Node) : (b.push node).bare = b.bare.push node.bare := rfl

theorem close_push (b : TreeBuilder) (node : Node) (kind : TagKind) : (b.push node).close kind =
    b.addNode (if kind = .image then describeImage node else node) := rfl

theorem step_stop (b : TreeBuilder) {kind : TagKind} (other : kind ≠ .item) (span : Span) :
    b.step (.stop kind) span = b.close kind := by
  simp [step, Event.isInline, Event.isBlock, other, apply]

theorem exists_of_element {tag : Tag} {inside : List EventTree} {events : List (Event × Span)}
    (spells : events.map Prod.fst = (EventTree.element tag inside).events) :
    ∃ span middle last, events = (.start tag, span) :: (middle ++ [(.stop tag.kind, last)]) ∧
      middle.map Prod.fst = eventsOf inside := by
  obtain ⟨span, rest, rfl, content⟩ := exists_of_cons spells
  obtain ⟨middle, ends, rfl, inner, stop⟩ := List.map_eq_append_iff.mp content
  obtain ⟨last, after, rfl, none⟩ := exists_of_cons stop
  obtain rfl : after = [] := List.map_eq_nil_iff.mp none
  exact ⟨span, middle, last, rfl, inner⟩

theorem run_element (b : TreeBuilder) (tag : Tag) (middle : List (Event × Span)) (span last : Span) :
    b.run ((.start tag, span) :: (middle ++ [(.stop tag.kind, last)])) =
      ((b.step (.start tag) span).run middle).step (.stop tag.kind) last := by
  rw [run_cons, run_append]
  rfl

def withValue (node : Node) (value : String) : Node := { node with value := some value }

theorem withValue_eq_self {node : Node} {value : String} (known : node.value = some value) :
    withValue node value = node := by
  obtain ⟨kind, children, before, url, label, position, data, rest⟩ := node
  exact congrArg (Node.mk kind children · url label position data rest) known.symm

theorem bare_withValue (node : Node) (value : String) :
    (withValue node value).bare = withValue node.bare value := by
  rw [Node.bare_eq, Node.bare_eq node]
  rfl

theorem appendValue?_push (b : TreeBuilder) {node : Node} {value : String}
    (known : node.value = some value) (content : String) : (b.push node).appendValue? content =
      some (b.push (withValue node (value ++ content))) := by
  simp [appendValue?, push, known, withValue]

theorem addText_push (b : TreeBuilder) {node : Node} {value : String}
    (known : node.value = some value) (content : String) (span : Span) :
    (b.push node).addText content span = b.push (withValue node (value ++ content)) := by
  by_cases empty : content.isEmpty
  · rw [addText, if_pos empty, String.isEmpty_iff.mp empty, String.append_empty,
      withValue_eq_self known]
  · rw [addText, if_neg empty, appendValue?_push b known]

theorem addHtml_push (b : TreeBuilder) {node : Node} {value : String}
    (known : node.value = some value) (content : String) (span : Span) :
    (b.push node).addHtml content span = b.push (withValue node (value ++ content)) := by
  rw [addHtml, appendValue?_push b known, Option.getD_some]

theorem run_raw {trees : List EventTree} (raw : ∀ tree ∈ trees, tree.first.isRaw) {b : TreeBuilder}
    (none : b.implicit = none) {node : Node} (kind : node.kind ≠ .listItem) {value : String}
    (known : node.value = some value) {events : List (Event × Span)}
    (spells : events.map Prod.fst = eventsOf trees) :
    (b.push node).run events = b.push (withValue node (value ++ rawText trees)) := by
  induction trees generalizing node value events with
  | nil =>
    obtain rfl : events = [] := List.map_eq_nil_iff.mp spells
    rw [rawText, String.append_empty, withValue_eq_self known]
    rfl
  | cons tree trees ih =>
    obtain ⟨own, others⟩ := List.forall_mem_cons.mp raw
    have later : ∀ (content : String) {rest : List (Event × Span)},
        rest.map Prod.fst = eventsOf trees →
        (b.push (withValue node (value ++ content))).run rest =
          b.push (withValue node (value ++ (content ++ rawText trees))) := by
      intro content rest spells
      have plain : (withValue node (value ++ content)).kind ≠ .listItem := kind
      have same := ih others plain rfl spells
      rw [same, String.append_assoc]
      rfl
    cases tree with
    | element tag inside => exact absurd own Bool.false_ne_true
    | single event =>
      obtain ⟨span, rest, rfl, after⟩ := exists_of_cons spells
      cases event with
      | text content =>
        have plain : ∀ top ∈ (b.push node).front, top.1 ≠ .listItem := by
          rintro _ ⟨⟩
          exact kind
        have step : (b.push node).step (.text content) span =
            b.push (withValue node (value ++ content)) := by
          rw [← addText_push b known content span]
          exact congrArg (addText · content span) (openImplicit_of_not_item plain span)
        rw [run_cons, step, later content after]
        rfl
      | html content =>
        have step : (b.push node).step (.html content) span =
            b.push (withValue node (value ++ content)) := by
          rw [← addHtml_push b known content span]
          exact congrArg (addHtml · content span) (closeImplicit_of_none none)
        rw [run_cons, step, later content after]
        rfl
      | _ => exact absurd own Bool.false_ne_true

theorem tasksOf_eq_nil {trees : List EventTree} (raw : ∀ tree ∈ trees, tree.first.isRaw) :
    tasksOf trees = [] := by
  induction trees with
  | nil => rfl
  | cons tree trees ih =>
    obtain ⟨own, others⟩ := List.forall_mem_cons.mp raw
    have none : tree.tasks = [] := by
      cases tree with
      | element tag inside => exact absurd own Bool.false_ne_true
      | single event =>
        cases event with
        | task state => exact absurd own Bool.false_ne_true
        | _ => rfl
    rw [tasksOf, none, ih others, List.append_nil]

theorem kind_of_isLiteral {tag : Tag} (literal : tag.isLiteral) : tag.isInline = false ∧
    tag.kind ≠ .item ∧ tag.kind ≠ .image := by
  unfold Tag.isLiteral at literal
  unfold Tag.isInline
  generalize tag.kind = kind at literal
  cases kind <;> simp_all

theorem elementNode_literal {tag : Tag} (literal : tag.isLiteral) (inside : List EventTree)
    (parts : List Part) : elementNode tag inside parts = withValue tag.node (rawText inside) := by
  unfold Tag.isLiteral at literal
  unfold elementNode
  generalize tag.kind = kind at literal
  cases kind <;> simp_all [withValue]

theorem run_literal {tag : Tag} {inside : List EventTree} (literal : tag.isLiteral)
    (raw : ∀ tree ∈ inside, tree.first.isRaw) {b : TreeBuilder} (ready : b.Ready (.start tag))
    {middle : List (Event × Span)} (inner : middle.map Prod.fst = eventsOf inside)
    (span last : Span) : b.run ((.start tag, span) :: (middle ++ [(.stop tag.kind, last)])) =
      b.addNode (withValue (b.place tag.node span) (rawText inside)) := by
  obtain ⟨block, item, image⟩ := kind_of_isLiteral literal
  obtain ⟨-, -, kind, -, value⟩ := tag.fields_node
  rw [if_pos literal] at value
  have none : b.implicit = none := ready.block (by simp [Event.beginsBlock, block])
  have plain : (b.place tag.node span).kind ≠ .listItem := fun same => item (kind.mp same)
  calc b.run ((.start tag, span) :: (middle ++ [(.stop tag.kind, last)]))
      = ((b.push (b.place tag.node span)).run middle).close tag.kind := by
        rw [run_element, step_stop _ item, Ready.step_start ready]
    _ = (b.push (withValue (b.place tag.node span) ("" ++ rawText inside))).close tag.kind := by
        rw [run_raw raw none plain value inner]
    _ = b.addNode (withValue (b.place tag.node span) (rawText inside)) := by
        rw [close_push, if_neg image, String.empty_append]

theorem translates_literal {tag : Tag} {inside : List EventTree} (literal : tag.isLiteral)
    (raw : ∀ tree ∈ inside, tree.first.isRaw) : Translates (.element tag inside) := by
  intro b events spells ready
  obtain ⟨span, middle, last, rfl, inner⟩ := exists_of_element spells
  obtain ⟨block, item, -⟩ := kind_of_isLiteral literal
  rw [run_literal literal raw ready inner, bare_addNode, bare_withValue, bare_place, tag.bare_node,
    EventTree.part, EventTree.tasks, block, elementNode_literal literal, if_neg item,
    tasksOf_eq_nil raw]
  rfl

theorem Ready.inside {b c : TreeBuilder} {tag : Tag} (ready : b.Ready (.start tag))
    (same : c.bare = b.bare.push tag.node) (plain : tag.isLiteral = false) (other : tag.kind ≠ .item)
    {event : Event} (inline : tag.isInline → event.beginsBlock = false) : c.Ready event := by
  obtain ⟨-, -, kind, -, value⟩ := tag.fields_node
  have front : c.front = some (tag.node.kind, none) := by
    rw [← front_bare c, same, front, push, List.head?_cons, Option.map_some, value, plain]
    rfl
  have implicit : c.implicit = b.implicit := by
    have bare : c.bare.implicit = (b.bare.push tag.node).implicit := by rw [same]
    exact bare
  refine ⟨?_, ?_, ?_⟩
  · rw [front]
    rintro _ ⟨⟩
    rfl
  · rw [front]
    rintro - _ ⟨⟩
    exact fun same => other (kind.mp same)
  · intro begins
    have block : tag.isInline = false := by
      cases known : tag.isInline with
      | false => rfl
      | true => exact absurd ((inline known).symm.trans begins) Bool.false_ne_true
    rw [implicit]
    exact ready.block (by simp [Event.beginsBlock, block])

theorem elementNode_eq {tag : Tag} (plain : tag.isLiteral = false) (other : tag.kind ≠ .item)
    (inside : List EventTree) (parts : List Part) : elementNode tag inside parts =
      let node := { tag.node with children := some (joinTexts "" parts) }
      if tag.kind = .image then describeImage node else node := by
  obtain ⟨-, -, -, -, value⟩ := tag.fields_node
  rw [plain] at value
  have image : describeImage { tag.node with children := some (joinTexts "" parts) } =
      ({ tag.node with children := none }).withField "alt"
        (.str (Node.textOfList (joinTexts "" parts))) := by
    rw [describeImage, Node.textContent_eq]
    simp [value, Node.childList]
  unfold elementNode
  unfold Tag.isLiteral at plain
  generalize tag.kind = kind at *
  cases kind <;> simp_all

theorem translates_element {tag : Tag} {inside : List EventTree} (plain : tag.isLiteral = false)
    (other : tag.kind ≠ .item) (inline : tag.isInline → ∀ tree ∈ inside, tree.first.beginsBlock = false)
    (each : ∀ tree ∈ inside, Translates tree) : Translates (.element tag inside) := by
  intro b events spells ready
  obtain ⟨span, middle, last, rfl, inner⟩ := exists_of_element spells
  obtain ⟨-, -, kind, children, -⟩ := tag.fields_node
  rw [if_neg (Bool.eq_false_iff.mp plain)] at children
  have start : (b.step (.start tag) span).bare = b.bare.push tag.node := by
    rw [Ready.step_start ready, bare_push, bare_place, tag.bare_node]
  have run := run_trees each (b.step (.start tag) span) inner fun tree member =>
    Ready.inside ready start plain other fun known => inline known tree member
  let node := { tag.node with children := some (joinTexts "" (partsOf inside)) }
  have notItem : node.kind ≠ .listItem := fun same => other (kind.mp same)
  calc (b.run ((.start tag, span) :: (middle ++ [(.stop tag.kind, last)]))).bare
      = ((b.step (.start tag) span).run middle).bare.close tag.kind := by
        rw [run_element, step_stop _ other, bare_close]
    _ = (((b.bare.push tag.node).addAll (partsOf inside)).mark (tasksOf inside)).close tag.kind := by
        rw [run, start]
    _ = ((b.bare.mark (tasksOf inside)).push node).close tag.kind := by
        rw [addAll_push _ children (EventTree.solid_partsOf inside), mark_push _ notItem]
    _ = (b.bare.addNode (elementNode tag inside (partsOf inside))).mark (tasksOf inside) := by
        rw [close_push, ← addNode_mark, elementNode_eq plain other]
    _ = (b.bare.add (EventTree.element tag inside).part).mark (EventTree.element tag inside).tasks := by
        rw [EventTree.part, EventTree.tasks, if_neg other]
        split <;> rfl

def inRun (b : TreeBuilder) : Option (List Part) → TreeBuilder
  | none => b
  | some run =>
    { b.push (Node.paragraph []) with implicit := some b.stack.length }.addAll run

structure InItem (b : TreeBuilder) : Prop where
  front : b.front = some (.listItem, none)
  implicit : b.implicit = none
  parent : b.withContent b.content = b

theorem InItem.mark {b : TreeBuilder} (item : b.InItem) (tasks : List Bool) :
    (b.mark tasks).InItem where
  front := (front_mark b tasks).trans item.front
  implicit := item.implicit
  parent := by rw [withContent_mark, content_mark, item.parent]

theorem InItem.withContent {b : TreeBuilder} (item : b.InItem) (nodes : List Node) :
    (b.withContent nodes).InItem where
  front := (front_withContent b nodes).trans item.front
  implicit := (implicit_withContent b nodes).trans item.implicit
  parent := by rw [content_withContent, withContent_withContent]

theorem inItem_push {b : TreeBuilder} (none : b.implicit = none) {node : Node}
    (kind : node.kind = .listItem) (value : node.value = Option.none)
    (children : node.children = some []) : (b.push node).InItem where
  front := by
    rw [TreeBuilder.front, push, List.head?_cons, Option.map_some, kind, value]
  implicit := none
  parent := by
    have list : node.childList = [] := by rw [Node.childList, children, Option.getD_some]
    have same : { node with children := some node.childList } = node := by
      rw [list, withChildren_eq_self children]
    exact congrArg b.push same

theorem kind_paragraph (nodes : List Node) : (Node.paragraph nodes).kind ≠ .listItem := by
  simp [Node.paragraph, Node.parent]

theorem inRun_some (b : TreeBuilder) {run : List Part} (solid : ∀ part ∈ run, part.Solid) :
    b.inRun (some run) =
      { b.push (Node.paragraph (joinTexts "" run)) with implicit := some b.stack.length } :=
  addAll_push { b with implicit := some b.stack.length } rfl solid

theorem add_inRun (b : TreeBuilder) (run : List Part) (part : Part) :
    (b.inRun (some run)).add part = b.inRun (some (run ++ [part])) :=
  (addAll_append _ run [part]).symm

theorem mark_inRun (b : TreeBuilder) (run : Option (List Part)) (tasks : List Bool) :
    (b.inRun run).mark tasks = (b.mark tasks).inRun run := by
  cases run with
  | none => rfl
  | some run =>
    have paragraph : ({ b.push (Node.paragraph []) with implicit := some b.stack.length }).mark tasks =
        { (b.mark tasks).push (Node.paragraph []) with implicit := some b.stack.length } :=
      mark_push { b with implicit := some b.stack.length } (kind_paragraph []) tasks
    rw [inRun, ← addAll_mark, paragraph, inRun, length_mark]

theorem closeImplicit_inRun {b : TreeBuilder} (item : b.InItem) {run : Option (List Part)}
    (solid : ∀ part ∈ run.getD [], part.Solid) :
    (b.inRun run).closeImplicit = b.withContent (b.content ++ paragraphOf run) := by
  cases run with
  | none =>
    rw [paragraphOf, List.append_nil, item.parent]
    exact closeImplicit_of_none item.implicit
  | some run =>
    have kept : { b with implicit := none } = b := by rw [← item.implicit]
    have closed : (b.inRun (some run)).closeImplicit =
        { b with implicit := none }.addNode (Node.paragraph (joinTexts "" run)) := by
      have each : ∀ part ∈ run, part.Solid := solid
      rw [inRun_some b each]
      exact if_pos rfl
    rw [closed, kept, addNode_eq]
    rfl

theorem bare_openImplicit_inRun {b base : TreeBuilder} (item : base.InItem)
    {run : Option (List Part)} (solid : ∀ part ∈ run.getD [], part.Solid)
    (same : b.bare = base.inRun run) (span : Span) :
    (b.openImplicit span).bare = base.inRun (some (run.getD [])) := by
  cases run with
  | none =>
    have none : b.implicit = none := (congrArg TreeBuilder.implicit same).trans item.implicit
    have length : b.stack.length = base.stack.length := by
      simpa [bare, inRun] using congrArg (fun c => c.stack.length) same
    have top : (b.stack.head?.any fun top => top.kind = .listItem) = true := by
      have front : b.front = some (.listItem, Option.none) := by
        rw [← front_bare, same]
        exact item.front
      obtain ⟨index, stack, roots, implicit⟩ := b
      cases stack with
      | nil => simp [TreeBuilder.front] at front
      | cons top outer => simp_all [TreeBuilder.front]
    rw [bare_openImplicit, none, top, same, length]
    rfl
  | some run =>
    have isOpen : b.implicit.isSome := by
      have known : b.implicit = some base.stack.length := by
        have each : ∀ part ∈ run, part.Solid := solid
        rw [inRun_some base each] at same
        exact congrArg TreeBuilder.implicit same
      rw [known]
      rfl
    rw [openImplicit_of_open isOpen, same]
    rfl

theorem front_inRun_some (b : TreeBuilder) {run : List Part} (solid : ∀ part ∈ run, part.Solid) :
    (b.inRun (some run)).front = some (.paragraph, none) := by
  rw [inRun_some b solid]
  rfl

theorem value_inRun {b : TreeBuilder} (item : b.InItem) {run : Option (List Part)}
    (solid : ∀ part ∈ run.getD [], part.Solid) : ∀ top ∈ (b.inRun run).front, top.2 = none := by
  cases run with
  | none =>
    rw [inRun, item.front]
    rintro _ ⟨⟩
    rfl
  | some run =>
    have each : ∀ part ∈ run, part.Solid := solid
    rw [front_inRun_some b each]
    rintro _ ⟨⟩
    rfl

theorem bare_closeImplicit_inRun {b base : TreeBuilder} (item : base.InItem)
    {run : Option (List Part)} (solid : ∀ part ∈ run.getD [], part.Solid)
    (same : b.bare = base.inRun run) :
    b.closeImplicit.bare = base.withContent (base.content ++ paragraphOf run) := by
  rw [bare_closeImplicit, same, closeImplicit_inRun item solid]

theorem ready_openImplicit {b base : TreeBuilder} (item : base.InItem)
    {run : Option (List Part)} (solid : ∀ part ∈ run.getD [], part.Solid)
    (same : b.bare = base.inRun run) (span : Span) {event : Event} (inline : event.isInline) :
    (b.openImplicit span).Ready event := by
  have front : (b.openImplicit span).front = some (.paragraph, none) := by
    rw [← front_bare, bare_openImplicit_inRun item solid same span]
    exact front_inRun_some base solid
  constructor
  case value =>
    rw [front]
    rintro _ ⟨⟩
    rfl
  case item =>
    rw [front]
    rintro - _ ⟨⟩
    exact kind_paragraph []
  case block =>
    intro block
    have none := Event.not_beginsBlock_of_isInline inline
    exact absurd (none.symm.trans block) Bool.false_ne_true

theorem ready_closeImplicit {b base : TreeBuilder} (item : base.InItem)
    {run : Option (List Part)} (solid : ∀ part ∈ run.getD [], part.Solid)
    (same : b.bare = base.inRun run) {event : Event} (inline : event.isInline = false) :
    b.closeImplicit.Ready event where
  value := by
    rw [← front_bare, bare_closeImplicit_inRun item solid same, front_withContent, item.front]
    rintro _ ⟨⟩
    rfl
  item := fun known => absurd (inline.symm.trans known) Bool.false_ne_true
  block := fun _ => implicit_closeImplicit b

/-- After a tree of an item, the item has more children and marks, and another run may be open. What
the rest of the item makes of these is what it makes of the tree before it. -/
structure Follows (base : TreeBuilder) (run : Option (List Part)) (tree : EventTree)
    (next : TreeBuilder) (later : Option (List Part)) : Prop where
  item : next.InItem
  solid : ∀ part ∈ later.getD [], part.Solid
  nodes : ∀ parts, next.content ++ itemNodes later parts =
    base.content ++ itemNodes run (tree.part :: parts)
  marks : ∀ nodes, next.withContent nodes = (base.withContent nodes).mark tree.tasks

theorem part_of_isInline {tree : EventTree} (proper : tree.Proper) (inline : tree.first.isInline) :
    (∃ content, tree.part = .text content) ∨ ∃ node, tree.part = .inline node := by
  cases proper with
  | @single event single =>
    cases event with
    | text content => exact .inl ⟨content, rfl⟩
    | softBreak => exact .inl ⟨"\n", rfl⟩
    | start | stop => exact absurd single Bool.false_ne_true
    | html | rule | task => exact absurd inline Bool.false_ne_true
    | _ => exact .inr ⟨_, rfl⟩
  | @element tag inside =>
    have known : tag.isInline := inline
    exact .inr ⟨_, by rw [EventTree.part, if_pos known]⟩

theorem part_of_beginsBlock {tree : EventTree} (proper : tree.Proper)
    (block : tree.first.beginsBlock) : ∃ node, tree.part = .block node := by
  cases proper with
  | @single event single =>
    cases event with
    | html content => exact ⟨_, rfl⟩
    | rule => exact ⟨_, rfl⟩
    | start => exact absurd single Bool.false_ne_true
    | _ => exact absurd block Bool.false_ne_true
  | @element tag inside =>
    have known : tag.isInline = false := by simpa [EventTree.first, Event.beginsBlock] using block
    exact ⟨_, by rw [EventTree.part, known]; rfl⟩

theorem part_of_neither {tree : EventTree} (inline : tree.first.isInline = false)
    (block : tree.first.beginsBlock = false) : tree.part = .nothing := by
  cases tree with
  | single event => cases event <;> simp_all [EventTree.first, Event.isInline, Event.beginsBlock,
      EventTree.part, Part.ofEvent]
  | element tag inside => simp_all [EventTree.first, Event.isInline, Event.beginsBlock]

/-- What a tree does in an item. -/
theorem run_inItem {tree : EventTree} (proper : tree.Proper) (translates : Translates tree)
    {b base : TreeBuilder} (item : base.InItem) {run : Option (List Part)}
    (solid : ∀ part ∈ run.getD [], part.Solid) (same : b.bare = base.inRun run)
    {events : List (Event × Span)} (spells : events.map Prod.fst = tree.events) :
    ∃ next later, (b.run events).bare = next.inRun later ∧ Follows base run tree next later := by
  have value : ∀ top ∈ b.front, top.2 = none := by
    rw [← front_bare b, same]
    exact value_inRun item solid
  obtain ⟨others, known⟩ := tree.events_eq_cons
  obtain ⟨span, rest, rfl, -⟩ := exists_of_cons (spells.trans known)
  cases inline : tree.first.isInline with
  | true =>
    have grown : ∀ part ∈ run.getD [] ++ [tree.part], part.Solid :=
      List.forall_mem_append.mpr ⟨solid, by simpa using tree.solid_part⟩
    have paragraph := bare_openImplicit_inRun item solid same span
    have ready := ready_openImplicit item solid same span inline
    refine ⟨base.mark tree.tasks, some (run.getD [] ++ [tree.part]), ?_, item.mark _, grown, ?_, ?_⟩
    · rw [← run_openImplicit b inline, translates _ _ spells ready, paragraph, add_inRun, mark_inRun]
    · intro parts
      rw [content_mark]
      obtain ⟨content, part⟩ | ⟨node, part⟩ := part_of_isInline proper inline
      · rw [part, itemNodes]
      · rw [part, itemNodes]
    · exact withContent_mark base tree.tasks
  | false =>
    cases block : tree.first.beginsBlock with
    | true =>
      obtain ⟨node, part⟩ := part_of_beginsBlock proper block
      have closed := bare_closeImplicit_inRun item solid same
      have ready := ready_closeImplicit item solid same inline
      refine ⟨(base.withContent (base.content ++ paragraphOf run ++ [node])).mark tree.tasks, none,
        ?_, (item.withContent _).mark _, by simp, ?_, ?_⟩
      · rw [← run_closeImplicit b inline (Event.isBlock_of_beginsBlock block),
          translates _ _ spells ready, closed, part, add, addNode_eq, content_withContent,
          withContent_withContent, inRun]
      · intro parts
        rw [content_mark, content_withContent, part, itemNodes, List.append_assoc, List.append_assoc]
        rfl
      · intro nodes
        rw [withContent_mark, withContent_withContent]
    | false =>
      have part := part_of_neither inline block
      have ready : b.Ready tree.first := by
        refine ⟨value, ?_, ?_⟩
        · exact fun known => absurd (inline.symm.trans known) Bool.false_ne_true
        · exact fun known => absurd (block.symm.trans known) Bool.false_ne_true
      refine ⟨base.mark tree.tasks, run, ?_, item.mark _, solid, ?_, ?_⟩
      · rw [translates _ _ spells ready, part, add, same, mark_inRun]
      · intro parts
        rw [content_mark, part, itemNodes]
      · exact withContent_mark base tree.tasks

theorem run_item {trees : List EventTree} (each : ∀ tree ∈ trees, tree.Proper ∧ Translates tree)
    {b base : TreeBuilder} (item : base.InItem) {run : Option (List Part)}
    (solid : ∀ part ∈ run.getD [], part.Solid) (same : b.bare = base.inRun run)
    {events : List (Event × Span)} (spells : events.map Prod.fst = eventsOf trees) :
    (b.run events).closeImplicit.bare =
      (base.withContent (base.content ++ itemNodes run (partsOf trees))).mark (tasksOf trees) := by
  induction trees generalizing b base run events with
  | nil =>
    obtain rfl : events = [] := List.map_eq_nil_iff.mp spells
    calc (b.run []).closeImplicit.bare = b.bare.closeImplicit := bare_closeImplicit b
      _ = base.withContent (base.content ++ paragraphOf run) := by
          rw [same, closeImplicit_inRun item solid]
  | cons tree trees ih =>
    obtain ⟨⟨proper, translates⟩, others⟩ := List.forall_mem_cons.mp each
    obtain ⟨before, after, rfl, first, rest⟩ := List.map_eq_append_iff.mp spells
    obtain ⟨next, later, after', follows⟩ := run_inItem proper translates item solid same first
    calc (b.run (before ++ after)).closeImplicit.bare
        = ((b.run before).run after).closeImplicit.bare := by rw [run_append]
      _ = (next.withContent (next.content ++ itemNodes later (partsOf trees))).mark
            (tasksOf trees) := ih others follows.item follows.solid after' rest
      _ = (base.withContent (base.content ++ itemNodes run (partsOf (tree :: trees)))).mark
            (tasksOf (tree :: trees)) := by
          rw [follows.nodes, follows.marks, mark_mark]
          rfl

theorem translates_item {tag : Tag} {inside : List EventTree} (isItem : tag.kind = .item)
    (each : ∀ tree ∈ inside, tree.Proper ∧ Translates tree) :
    Translates (.element tag inside) := by
  intro b events spells ready
  obtain ⟨span, middle, last, rfl, inner⟩ := exists_of_element spells
  obtain ⟨-, -, kind, children, value⟩ := tag.fields_node
  have plain : tag.isLiteral = false := by rw [Tag.isLiteral, isItem]
  have block : tag.isInline = false := by rw [Tag.isInline, isItem]
  rw [plain] at children value
  have itemKind : tag.node.kind = .listItem := kind.mpr isItem
  have start : (b.step (.start tag) span).bare = (b.bare.push tag.node).inRun none := by
    rw [Ready.step_start ready, bare_push, bare_place, tag.bare_node, inRun]
  have closed : b.implicit = none :=
    ready.block (by simp [EventTree.first, Event.beginsBlock, block])
  have item := inItem_push (b := b.bare) closed itemKind value children
  let node := { tag.node with children := some (itemNodes none (partsOf inside)) }
  have nodeKind : node.kind = .listItem := itemKind
  have stop : ∀ c : TreeBuilder, c.step (.stop tag.kind) last = c.closeImplicit.close .item := by
    intro c
    rw [isItem]
    rfl
  have content : (b.bare.push tag.node).content = [] := tag.childList_node
  have fresh : ∀ part ∈ (none : Option (List Part)).getD [], part.Solid := by simp
  have run := run_item each item fresh start inner
  calc (b.run ((.start tag, span) :: (middle ++ [(.stop tag.kind, last)]))).bare
      = ((b.step (.start tag) span).run middle).closeImplicit.bare.close .item := by
        rw [run_element, stop, bare_close]
    _ = ((b.bare.push node).mark (tasksOf inside)).close .item := by
        rw [run, content]
        rfl
    _ = b.bare.addNode (checked (tasksOf inside) node) := by
        rw [mark_push_item b.bare nodeKind, close_push]
        rfl
    _ = (b.bare.add (EventTree.element tag inside).part).mark (EventTree.element tag inside).tasks := by
        rw [EventTree.part, EventTree.tasks, block, if_pos isItem, elementNode, isItem]
        rfl

theorem translates {tree : EventTree} (proper : tree.Proper) : Translates tree := by
  induction proper with
  | single single => exact translates_single single
  | @element tag inside inline literal each ih =>
    cases raw : tag.isLiteral with
    | true => exact translates_literal raw (literal raw)
    | false =>
      by_cases isItem : tag.kind = .item
      · exact translates_item isItem fun tree member => ⟨each tree member, ih tree member⟩
      · exact translates_element raw isItem inline ih

/-- The builder reads well nested events as the trees that they spell: every element is closed again,
no paragraph is left open, and the nodes are those that the trees describe. -/
theorem run_wellNested (index : LineIndex) {events : List (Event × Span)}
    (nested : WellNested [] (events.map Prod.fst)) :
    (∃ trees, eventsOf trees = events.map Prod.fst ∧ ∀ tree ∈ trees, tree.Proper) ∧
      ∀ trees, eventsOf trees = events.map Prod.fst → (∀ tree ∈ trees, tree.Proper) →
        let read := (TreeBuilder.mk index [] [] none).run events
        read.stack = [] ∧ read.implicit = none ∧
          read.roots.map Node.bare = EventTree.nodesOf trees := by
  constructor
  · obtain ⟨trees, rest, spells, each, closes⟩ := nested.exists_trees
    cases closes
    exact ⟨trees, by rw [spells, List.append_nil], fun tree member => (each tree member).1⟩
  · intro trees spells proper read
    let fresh := TreeBuilder.mk index [] [] none
    have ready : ∀ tree ∈ trees, fresh.Ready tree.first := by
      intro tree _
      refine ⟨?_, ?_, fun _ => rfl⟩
      · simp [front, fresh]
      · simp [front, fresh]
    have run := run_trees (fun tree member => translates (proper tree member)) fresh spells.symm ready
    have apart : ∀ last ∈ ([] : List Node).getLast?, last.kind ≠ .text := by simp
    have added : fresh.bare.addAll (partsOf trees) =
        { fresh.bare with roots := EventTree.nodesOf trees } :=
      addAll_withContent fresh.bare apart (EventTree.solid_partsOf trees) ""
    rw [added, mark_of_stack_nil rfl] at run
    refine ⟨?_, ?_, ?_⟩
    · exact List.map_eq_nil_iff.mp (congrArg TreeBuilder.stack run)
    · exact congrArg TreeBuilder.implicit run
    · exact congrArg TreeBuilder.roots run

/-- A tight list in a tight list. The outer item has a task box, text and an image before it. -/
theorem run_wellNested_tight :
    let events := [.start (.list none), .start .item, .task true, .text "a", .softBreak,
      .start (.image .inline "i" ""), .text "b", .stop .image, .start (.list none), .start .item,
      .code "c", .stop .item, .stop .list, .stop .item, .stop .list]
    let list := fun items =>
      ((Node.parent .list items).withField "ordered" (.bool false)).withField "spread" (.bool false)
    let item := fun nodes => (Node.parent .listItem nodes).withField "spread" (.bool false)
    let image := { Node.ofKind .image with url := some "i" }.withField "alt" (.str "b")
    let read := (TreeBuilder.mk ⟨[]⟩ [] [] none).run (events.map fun event => (event, ⟨0, 0⟩))
    WellNested [] events ∧ read.stack = [] ∧ read.implicit = none ∧ read.roots.map Node.bare =
      [list [(item [Node.paragraph [Node.text "a\n", image],
        list [item [Node.paragraph [Node.literal .inlineCode "c"]]]]).withField
          "checked" (.bool true)]] := by
  intro events list item image read
  have nested : WellNested [] events := by decide
  let inner : List EventTree := [.element .item [.single (.code "c")]]
  let trees : List EventTree := [.element (.list none) [.element .item [.single (.task true),
    .single (.text "a"), .single .softBreak, .element (.image .inline "i" "") [.single (.text "b")],
    .element (.list none) inner]]]
  have proper : ∀ tree ∈ trees, tree.Proper := by
    simp [trees, inner, Event.isSingle, EventTree.first, Event.beginsBlock, Tag.isInline,
      Tag.isLiteral, Tag.kind]
  have run := @run_wellNested ⟨[]⟩ (events.map fun event => (event, ⟨0, 0⟩)) nested
  exact ⟨nested, run.2 trees rfl proper⟩

end TreeBuilder

end PageTree.Markdown
