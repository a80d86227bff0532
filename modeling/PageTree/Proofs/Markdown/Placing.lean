import PageTree.Proofs.Markdown.Placement

/-!
The tree builder gives each node its place. The end of a text moves with every text that joins it, and
that of a paragraph without a tag is known only when the paragraph closes. While the builder reads the
events of a tree it changes the innermost open element alone, so that both ends are settled by what
stands in that element.
-/

namespace PageTree.Markdown

open EventTree (eventsOf tasksOf rawText Proper)

namespace TreeBuilder

/-- The builder changes the innermost open element by what the events of the tree give, and marks
items. -/
def Lays (tree : EventTree) : Prop :=
  ∀ (b : TreeBuilder) (events : List (Event × Span)), b.withContent b.content = b →
    (∀ span, (.text "", span) ∉ events) → events.map Prod.fst = tree.events → b.Ready tree.first →
      ∃ nodes, b.run events = (b.withContent nodes).mark tree.tasks ∧
        ∀ before, Gives b.index before b.content → Gives b.index (before ++ events) nodes

@[simp] theorem index_withContent (b : TreeBuilder) (nodes : List Node) :
    (b.withContent nodes).index = b.index := by
  obtain ⟨index, stack, roots, implicit⟩ := b
  cases stack <;> rfl

@[simp] theorem index_mark_withContent (b : TreeBuilder) (nodes : List Node) (tasks : List Bool) :
    ((b.withContent nodes).mark tasks).index = b.index := index_withContent b nodes

@[simp] theorem mark_nil (b : TreeBuilder) : b.mark [] = b := rfl

theorem Ready.withContent {b : TreeBuilder} {event : Event} (ready : b.Ready event)
    (nodes : List Node) : (b.withContent nodes).Ready event := by
  refine ⟨?_, ?_, ?_⟩
  · rw [front_withContent]
    exact ready.value
  · rw [front_withContent]
    exact ready.item
  · rw [implicit_withContent]
    exact ready.block

theorem Ready.mark {b : TreeBuilder} {event : Event} (ready : b.Ready event) (tasks : List Bool) :
    (b.mark tasks).Ready event := by
  refine ⟨?_, ?_, ready.block⟩
  · rw [front_mark]
    exact ready.value
  · rw [front_mark]
    exact ready.item

theorem addLeaf_eq (b : TreeBuilder) (node : Node) (span : Span) :
    b.addLeaf node span = b.withContent (b.content ++ [b.place node span]) := addNode_eq b _

theorem addHtml_eq {b : TreeBuilder} (plain : ∀ top ∈ b.front, top.2 = none) (content : String)
    (span : Span) : b.addHtml content span =
      b.withContent (b.content ++ [b.place (Node.html content) span]) := by
  rw [addHtml, appendValue?_of_none plain, Option.getD_none, addLeaf_eq]

def leafNode : Event → Node
  | .code content => Node.literal .inlineCode content
  | .html content | .inlineHtml content => Node.html content
  | .hardBreak => Node.ofKind .lineBreak
  | .rule => Node.ofKind .thematicBreak
  | .footnoteReference label =>
    Tag.withIdentifier { Node.ofKind .footnoteReference with label := some label } label
  | .inlineMath content => Node.literal (.other "inlineMath") content
  | .displayMath content => Node.literal (.other "math") content
  | _ => default

theorem apply_leaf {b : TreeBuilder} {event : Event} (ready : b.Ready event) (leaf : event.isLeaf)
    (span : Span) : b.apply event span =
      b.withContent (b.content ++ [b.place (leafNode event) span]) := by
  cases event with
  | html content | inlineHtml content => exact addHtml_eq ready.value content span
  | start | stop | text | softBreak | task => exact absurd leaf Bool.false_ne_true
  | _ => exact addLeaf_eq b _ span

theorem apply_text {b : TreeBuilder} {event : Event} (ready : b.Ready event) (text : event.isText)
    (some : event ≠ .text "") (span : Span) : b.apply event span =
      b.withContent (joinText (b.place (Node.text event.said) span) b.content) := by
  cases event with
  | text content =>
    have filled : content.isEmpty = false := by simpa using some
    exact (addText_eq ready.value content span).trans (if_neg (Bool.eq_false_iff.mp filled))
  | softBreak => exact addText_eq ready.value "\n" span
  | _ => exact absurd text Bool.false_ne_true

theorem lays_single {event : Event} (single : event.isSingle) : Lays (.single event) := by
  intro b events parent filled spells ready
  obtain ⟨span, rest, rfl, after⟩ := exists_of_cons spells
  obtain rfl : rest = [] := List.map_eq_nil_iff.mp after
  have begins : event.isBlock → event.beginsBlock := by
    cases event <;> simp_all [Event.isBlock, Event.beginsBlock, Event.isSingle]
  have run : b.run [(event, span)] = b.apply event span := ready.step_eq begins span
  rw [run]
  cases text : event.isText with
  | true =>
    have some : event ≠ .text "" := by
      rintro rfl
      exact filled span List.mem_cons_self
    have tasks : (EventTree.single event).tasks = [] := by cases event <;> trivial
    refine ⟨_, by rw [tasks, mark_nil]; exact apply_text ready text some span, ?_⟩
    exact fun before gives => gives.joinText text span
  | false =>
    cases leaf : event.isLeaf with
    | true =>
      have node : (leafNode event).kind ≠ .text ∧ (leafNode event).childList = [] ∧
          (EventTree.single event).tasks = [] := by
        cases event <;> first | exact absurd leaf Bool.false_ne_true | exact ⟨Kind.noConfusion, rfl, rfl⟩
      refine ⟨_, by rw [node.2.2, mark_nil]; exact apply_leaf ready leaf span, ?_⟩
      exact fun before gives => .leaf gives leaf node.1 node.2.1 rfl
    | false =>
      cases event with
      | task state =>
        exact ⟨b.content, by rw [parent]; rfl, fun before gives => .task gives⟩
      | _ => simp_all [Event.isSingle, Event.isText, Event.isLeaf]

theorem lays_trees {trees : List EventTree} (each : ∀ tree ∈ trees, Lays tree) (b : TreeBuilder)
    {events : List (Event × Span)} (parent : b.withContent b.content = b)
    (filled : ∀ span, (.text "", span) ∉ events) (spells : events.map Prod.fst = eventsOf trees)
    (ready : ∀ tree ∈ trees, b.Ready tree.first) :
    ∃ nodes, b.run events = (b.withContent nodes).mark (tasksOf trees) ∧
      ∀ before, Gives b.index before b.content → Gives b.index (before ++ events) nodes := by
  induction trees generalizing b events with
  | nil =>
    obtain rfl : events = [] := List.map_eq_nil_iff.mp spells
    exact ⟨b.content, by rw [parent]; rfl, fun before gives => by rwa [List.append_nil]⟩
  | cons tree trees ih =>
    obtain ⟨own, others⟩ := List.forall_mem_cons.mp each
    obtain ⟨here, later⟩ := List.forall_mem_cons.mp ready
    obtain ⟨first, rest, rfl, begins, follows⟩ := List.map_eq_append_iff.mp spells
    simp only [List.mem_append, not_or, forall_and] at filled
    obtain ⟨nodes, run, gives⟩ := own b first parent filled.1 begins here
    have open' : ∀ content, ((b.withContent nodes).mark tree.tasks).withContent content =
        (b.withContent content).mark tree.tasks := by
      intro content
      rw [withContent_mark, withContent_withContent]
    obtain ⟨nodes', run', gives'⟩ := ih others ((b.withContent nodes).mark tree.tasks)
      (by rw [open', content_mark, content_withContent]) filled.2 follows
      fun other member => ((later other member).withContent nodes).mark tree.tasks
    refine ⟨nodes', ?_, ?_⟩
    · rw [run_append, run, run', open', mark_mark]
      rfl
    · intro before given
      rw [← List.append_assoc]
      simpa using gives' (before ++ first) (by simpa using gives before given)

theorem isRaw_of_mem_eventsOf {trees : List EventTree} (raw : ∀ tree ∈ trees, tree.first.isRaw) :
    ∀ event ∈ eventsOf trees, event.isRaw := by
  induction trees with
  | nil => exact nofun
  | cons tree trees ih =>
    obtain ⟨own, others⟩ := List.forall_mem_cons.mp raw
    cases tree with
    | element tag inside => exact absurd own Bool.false_ne_true
    | single event => exact List.forall_mem_cons.mpr ⟨own, ih others⟩

theorem lays_literal {tag : Tag} {inside : List EventTree} (literal : tag.isLiteral)
    (raw : ∀ tree ∈ inside, tree.first.isRaw) : Lays (.element tag inside) := by
  intro b events parent filled spells ready
  obtain ⟨span, middle, last, rfl, inner⟩ := exists_of_element spells
  obtain ⟨-, item, -⟩ := kind_of_isLiteral literal
  have tasks : (EventTree.element tag inside).tasks = [] := by
    rw [EventTree.tasks, if_neg item, tasksOf_eq_nil raw]
  have events : ∀ event ∈ middle, event.1.isRaw := by
    intro event member
    exact isRaw_of_mem_eventsOf raw event.1 (inner ▸ List.mem_map_of_mem member)
  refine ⟨b.content ++ [withValue (b.place tag.node span) (rawText inside)], ?_,
    fun before gives => .literal gives literal events rfl tag.childList_node rfl⟩
  rw [run_literal literal raw ready inner, tasks, mark_nil, addNode_eq]

theorem withContent_push {b : TreeBuilder} {node : Node} (children : node.children = some []) :
    (b.push node).withContent (b.push node).content = b.push node := by
  have none : (b.push node).content = [] := by
    change node.childList = []
    rw [Node.childList, children, Option.getD_some]
  rw [none]
  exact congrArg b.push (withChildren_eq_self children)

theorem lays_element {tag : Tag} {inside : List EventTree} (plain : tag.isLiteral = false)
    (other : tag.kind ≠ .item) (inline : tag.isInline → ∀ tree ∈ inside, tree.first.beginsBlock = false)
    (each : ∀ tree ∈ inside, Lays tree) : Lays (.element tag inside) := by
  intro b events parent filled spells ready
  obtain ⟨span, middle, last, rfl, inner⟩ := exists_of_element spells
  obtain ⟨-, -, kind, children, -⟩ := tag.fields_node
  rw [if_neg (Bool.eq_false_iff.mp plain)] at children
  have start : (b.push (b.place tag.node span)).bare = b.bare.push tag.node := by
    rw [bare_push, bare_place, tag.bare_node]
  have filled' : ∀ span, (.text "", span) ∉ middle := fun span member =>
    filled span (List.mem_cons_of_mem _ (List.mem_append_left _ member))
  obtain ⟨nodes, run, gives⟩ := lays_trees each (b.push (b.place tag.node span))
    (withContent_push children) filled' inner
    fun tree member => Ready.inside ready start plain other fun known => inline known tree member
  have given : Gives b.index middle nodes := by
    have none : (b.push (b.place tag.node span)).content = [] := tag.childList_node
    refine gives [] ?_
    rw [none]
    exact .nil
  let node := { b.place tag.node span with children := some nodes }
  have notItem : node.kind ≠ .listItem := fun same => other (kind.mp same)
  let final := if tag.kind = .image then describeImage node else node
  have kept : final.kind = tag.node.kind ∧
      final.childList = (if tag.kind = .image then [] else nodes) ∧
      final.position = some (b.index.position span.start span.stop) := by
    by_cases image : tag.kind = .image <;> simp only [final, image, if_true, if_false]
    · exact ⟨rfl, rfl, rfl⟩
    · exact ⟨rfl, rfl, rfl⟩
  refine ⟨b.content ++ [final], ?_, fun before gives =>
    .element gives given kept.1 kept.2.1 kept.2.2⟩
  have pushed : (b.push (b.place tag.node span)).withContent nodes = b.push node := rfl
  calc b.run ((.start tag, span) :: (middle ++ [(.stop tag.kind, last)]))
      = (((b.push (b.place tag.node span)).withContent nodes).mark (tasksOf inside)).close
          tag.kind := by
        rw [run_element, step_stop _ other, Ready.step_start ready, run]
    _ = (b.mark (tasksOf inside)).addNode final := by
        rw [pushed, mark_push _ notItem, close_push]
    _ = (b.withContent (b.content ++ [final])).mark (EventTree.element tag inside).tasks := by
        rw [addNode_mark, addNode_eq, EventTree.tasks, if_neg other]

/-- The builder with a paragraph without a tag above its innermost open element. -/
def withParagraph (b : TreeBuilder) (nodes : List Node) (place : Position) : TreeBuilder :=
  { b.push ((Node.paragraph nodes).withPosition place) with implicit := some b.stack.length }

theorem openImplicit_of_inItem {b : TreeBuilder} (item : b.InItem) (span : Span) :
    b.openImplicit span = b.withParagraph [] (b.index.position span.start span.stop) := by
  have top : (b.stack.head?.any fun top => top.kind = .listItem) = true := by
    have front := item.front
    rw [TreeBuilder.front, Option.map_eq_some_iff] at front
    obtain ⟨top, head, same⟩ := front
    rw [head, Option.any_some, decide_eq_true_iff]
    exact congrArg Prod.fst same
  rw [openImplicit, item.implicit, top]
  rfl

theorem closeImplicit_withParagraph {b : TreeBuilder} (none : b.implicit = none)
    (nodes : List Node) (place : Position) : (b.withParagraph nodes place).closeImplicit =
      b.addNode (fitToChildren ((Node.paragraph nodes).withPosition place)) := by
  have kept : { b with implicit := Option.none } = b := by rw [← none]
  have closed : (b.withParagraph nodes place).closeImplicit = { b with implicit := Option.none }.addNode
      (fitToChildren ((Node.paragraph nodes).withPosition place)) := if_pos rfl
  rw [closed, kept]

theorem mark_withParagraph (b : TreeBuilder) (nodes : List Node) (place : Position)
    (tasks : List Bool) :
    (b.withParagraph nodes place).mark tasks = (b.mark tasks).withParagraph nodes place := by
  have kind : ((Node.paragraph nodes).withPosition place).kind ≠ .listItem := kind_paragraph nodes
  have pushed := mark_push { b with implicit := some b.stack.length } kind tasks
  have still : (b.mark tasks).withParagraph nodes place = { (b.mark tasks).push
      ((Node.paragraph nodes).withPosition place) with implicit := some b.stack.length } := by
    rw [withParagraph, length_mark]
  exact pushed.trans still.symm

/-- The builder in an item after some of its events. The last of them may stand in a paragraph without
a tag, which starts where the first of its events does. -/
inductive Filled (b : TreeBuilder) (tasks : List Bool) : List (Event × Span) → TreeBuilder → Prop
  | between {events : List (Event × Span)} {nodes : List Node} (gives : Gives b.index events nodes) :
      Filled b tasks events ((b.withContent nodes).mark tasks)
  | within {events run : List (Event × Span)} {nodes children : List Node} {event : Event}
      {span : Span} {place : Position} (gives : Gives b.index events nodes)
      (inner : Gives b.index run children) (head : run.head? = some (event, span))
      (inline : event.isInline) (start : place.start = b.index.point span.start) :
      Filled b tasks (events ++ run) (((b.withContent nodes).mark tasks).withParagraph children place)

theorem filled_nil {b : TreeBuilder} (empty : b.withContent [] = b) : Filled b [] [] b := by
  have same : Filled b [] [] ((b.withContent []).mark []) := .between .nil
  rwa [mark_nil, empty] at same

theorem Filled.exists_closed {b c : TreeBuilder} {tasks : List Bool} {events : List (Event × Span)}
    (item : b.InItem) (filled : Filled b tasks events c) : ∃ nodes, Gives b.index events nodes ∧
      c.closeImplicit = (b.withContent nodes).mark tasks := by
  cases filled with
  | @between _ nodes gives =>
    have none : ((b.withContent nodes).mark tasks).implicit = none :=
      ((item.withContent nodes).mark tasks).implicit
    exact ⟨nodes, gives, closeImplicit_of_none none⟩
  | @within events run nodes children event span place gives inner head inline start =>
    obtain ⟨first, isFirst, position, own, same⟩ := inner.begins head inline
    obtain ⟨last, isLast⟩ : ∃ last, children.getLast? = some last := by
      cases children with
      | nil => cases isFirst
      | cons child children => exact ⟨_, List.getLast?_eq_getLast_of_ne_nil (List.cons_ne_nil _ _)⟩
    obtain ⟨finish, known⟩ := inner.exists_position last (List.mem_of_getLast? isLast)
    have fitted : fitToChildren ((Node.paragraph children).withPosition place) =
        (Node.paragraph children).withPosition ⟨position.start, finish.finish⟩ := by
      have place' : ((Node.paragraph children).withPosition place).position = some place := rfl
      have list : ((Node.paragraph children).withPosition place).childList.getLast? = some last := isLast
      rw [fitToChildren, place', list, Option.bind_some, known, same, ← start]
      rfl
    refine ⟨nodes ++ [fitToChildren ((Node.paragraph children).withPosition place)], ?_, ?_⟩
    · rw [fitted]
      refine .paragraph gives inner ?_ rfl rfl ⟨first, isFirst, last, isLast, position, own, finish,
        known, rfl⟩
      rw [head]
      rintro _ ⟨⟩
      exact inline
    · rw [closeImplicit_withParagraph ((item.withContent nodes).mark tasks).implicit, addNode_mark,
        addNode_eq, content_withContent, withContent_withContent]

theorem Lays.withParagraph {tree : EventTree} (lays : Lays tree)
    (plain : tree.first.beginsBlock = false) (b : TreeBuilder) (children : List Node)
    (place : Position) {events : List (Event × Span)} (filled : ∀ span, (.text "", span) ∉ events)
    (spells : events.map Prod.fst = tree.events) : ∃ children',
      (b.withParagraph children place).run events =
        (b.mark tree.tasks).withParagraph children' place ∧
      ∀ before, Gives b.index before children → Gives b.index (before ++ events) children' := by
  have ready : (b.withParagraph children place).Ready tree.first := by
    refine ⟨?_, ?_, fun block => absurd (plain.symm.trans block) Bool.false_ne_true⟩
    · rintro _ ⟨⟩
      rfl
    · rintro - _ ⟨⟩
      exact kind_paragraph children
  obtain ⟨children', run, gives⟩ := lays _ events rfl filled spells ready
  refine ⟨children', ?_, gives⟩
  rw [run, ← mark_withParagraph]
  rfl

theorem Lays.inItem {tree : EventTree} (lays : Lays tree) (plain : tree.first.isInline = false)
    {b : TreeBuilder} (item : b.InItem) {events : List (Event × Span)}
    (filled : ∀ span, (.text "", span) ∉ events) (spells : events.map Prod.fst = tree.events) :
    ∃ nodes, b.run events = (b.withContent nodes).mark tree.tasks ∧
      ∀ before, Gives b.index before b.content → Gives b.index (before ++ events) nodes := by
  refine lays b events item.parent filled spells ⟨?_, ?_, fun _ => item.implicit⟩
  · rw [item.front]
    rintro _ ⟨⟩
    rfl
  · exact fun inline => absurd (plain.symm.trans inline) Bool.false_ne_true

theorem Lays.between {tree : EventTree} (lays : Lays tree) (plain : tree.first.isInline = false)
    {b : TreeBuilder} (item : b.InItem) (tasks : List Bool) {before events : List (Event × Span)}
    {nodes : List Node} (gives : Gives b.index before nodes)
    (filled : ∀ span, (.text "", span) ∉ events) (spells : events.map Prod.fst = tree.events) :
    Filled b (tasks ++ tree.tasks) (before ++ events)
      (((b.withContent nodes).mark tasks).run events) := by
  obtain ⟨nodes', run, gives'⟩ := lays.inItem plain ((item.withContent nodes).mark tasks) filled spells
  rw [run, withContent_mark, withContent_withContent, mark_mark]
  refine .between ?_
  simpa using gives' before (by simpa using gives)

theorem Lays.within {tree : EventTree} (lays : Lays tree) (plain : tree.first.beginsBlock = false)
    (b : TreeBuilder) (tasks : List Bool) {before run events : List (Event × Span)}
    {nodes children : List Node} (gives : Gives b.index before nodes)
    (inner : Gives b.index run children) {event : Event} {span : Span}
    (head : (run ++ events).head? = some (event, span)) (inline : event.isInline) {place : Position}
    (start : place.start = b.index.point span.start) (filled : ∀ span, (.text "", span) ∉ events)
    (spells : events.map Prod.fst = tree.events) :
    Filled b (tasks ++ tree.tasks) (before ++ (run ++ events))
      ((((b.withContent nodes).mark tasks).withParagraph children place).run events) := by
  obtain ⟨children', ran, gives'⟩ := lays.withParagraph plain ((b.withContent nodes).mark tasks)
    children place filled spells
  rw [ran, mark_mark]
  refine .within gives ?_ head inline start
  simpa using gives' run (by simpa using inner)

theorem Filled.tree {tree : EventTree} (lays : Lays tree) {b c : TreeBuilder} (item : b.InItem)
    {tasks : List Bool} {before events : List (Event × Span)} (held : Filled b tasks before c)
    (filled : ∀ span, (.text "", span) ∉ events) (spells : events.map Prod.fst = tree.events) :
    Filled b (tasks ++ tree.tasks) (before ++ events) (c.run events) := by
  obtain ⟨others, known⟩ := tree.events_eq_cons
  obtain ⟨span, rest, rfl, -⟩ := exists_of_cons (spells.trans known)
  cases inline : tree.first.isInline with
  | true =>
    have plain := Event.not_beginsBlock_of_isInline inline
    cases held with
    | @between _ nodes gives =>
      have item' := (item.withContent nodes).mark tasks
      rw [← run_openImplicit _ inline, openImplicit_of_inItem item']
      exact lays.within plain b tasks gives .nil rfl inline (by simp [LineIndex.position]) filled spells
    | within gives inner head inline' start =>
      rw [List.append_assoc]
      exact lays.within plain b tasks gives inner (by rw [List.head?_append, head]; rfl) inline' start
        filled spells
  | false =>
    cases block : tree.first.beginsBlock with
    | true =>
      obtain ⟨nodes, gives, closed⟩ := held.exists_closed item
      rw [← run_closeImplicit c inline (Event.isBlock_of_beginsBlock block), closed]
      exact lays.between inline item tasks gives filled spells
    | false =>
      cases held with
      | between gives => exact lays.between inline item tasks gives filled spells
      | within gives inner head inline' start =>
        rw [List.append_assoc]
        exact lays.within block b tasks gives inner (by rw [List.head?_append, head]; rfl) inline'
          start filled spells

theorem Filled.trees {trees : List EventTree} (each : ∀ tree ∈ trees, Lays tree) {b c : TreeBuilder}
    (item : b.InItem) {tasks : List Bool} {before events : List (Event × Span)}
    (held : Filled b tasks before c) (filled : ∀ span, (.text "", span) ∉ events)
    (spells : events.map Prod.fst = eventsOf trees) :
    Filled b (tasks ++ tasksOf trees) (before ++ events) (c.run events) := by
  induction trees generalizing c tasks before events with
  | nil =>
    obtain rfl : events = [] := List.map_eq_nil_iff.mp spells
    rw [tasksOf, List.append_nil, List.append_nil]
    exact held
  | cons tree trees ih =>
    obtain ⟨own, others⟩ := List.forall_mem_cons.mp each
    obtain ⟨first, rest, rfl, begins, follows⟩ := List.map_eq_append_iff.mp spells
    simp only [List.mem_append, not_or, forall_and] at filled
    have next := ih others (held.tree own item filled.1 begins) filled.2 follows
    rw [run_append, tasksOf, ← List.append_assoc, ← List.append_assoc]
    exact next

theorem lays_item {tag : Tag} {inside : List EventTree} (isItem : tag.kind = .item)
    (each : ∀ tree ∈ inside, Lays tree) : Lays (.element tag inside) := by
  intro b events parent filled spells ready
  obtain ⟨span, middle, last, rfl, inner⟩ := exists_of_element spells
  obtain ⟨-, -, kind, children, value⟩ := tag.fields_node
  have plain : tag.isLiteral = false := by rw [Tag.isLiteral, isItem]
  have block : tag.isInline = false := by rw [Tag.isInline, isItem]
  rw [plain] at children value
  have closed : b.implicit = none :=
    ready.block (by simp [EventTree.first, Event.beginsBlock, block])
  let start := b.place tag.node span
  have item : (b.push start).InItem := inItem_push closed (kind.mpr isItem) value children
  have fresh : Filled (b.push start) [] [] (b.push start) :=
    filled_nil (congrArg b.push (withChildren_eq_self children))
  have filled' : ∀ span, (.text "", span) ∉ middle := fun span member =>
    filled span (List.mem_cons_of_mem _ (List.mem_append_left _ member))
  obtain ⟨nodes, gives, done⟩ := (fresh.trees each item filled' inner).exists_closed item
  let node := { start with children := some nodes }
  have nodeKind : node.kind = .listItem := kind.mpr isItem
  let final := checked (tasksOf inside) node
  have kept : final.kind = tag.node.kind ∧ final.childList = nodes ∧
      final.position = some (b.index.position span.start span.stop) := by
    unfold final checked
    split <;> exact ⟨rfl, rfl, rfl⟩
  have stop : ∀ c : TreeBuilder, c.step (.stop tag.kind) last = c.closeImplicit.close .item := by
    intro c
    rw [isItem]
    rfl
  have notImage : tag.kind ≠ .image := by rw [isItem]; decide
  refine ⟨b.content ++ [final], ?_, fun before given =>
    .element given gives kept.1 (kept.2.1.trans (if_neg notImage).symm) kept.2.2⟩
  have pushed : (b.push start).withContent nodes = b.push node := rfl
  calc b.run ((.start tag, span) :: (middle ++ [(.stop tag.kind, last)]))
      = ((b.push start).run middle).closeImplicit.close .item := by
        rw [run_element, stop, Ready.step_start ready]
    _ = (((b.push start).withContent nodes).mark (tasksOf inside)).close .item := by
        rw [done, List.nil_append]
    _ = b.addNode final := by
        rw [pushed, mark_push_item b nodeKind, close_push]
        rfl
    _ = (b.withContent (b.content ++ [final])).mark (EventTree.element tag inside).tasks := by
        rw [addNode_eq, EventTree.tasks, if_pos isItem, mark_nil]

theorem lays {tree : EventTree} (proper : tree.Proper) : Lays tree := by
  induction proper with
  | single single => exact lays_single single
  | @element tag inside inline literal each ih =>
    cases raw : tag.isLiteral with
    | true => exact lays_literal raw (literal raw)
    | false =>
      by_cases isItem : tag.kind = .item
      · exact lays_item isItem ih
      · exact lays_element raw isItem inline ih

end TreeBuilder

/-- Well nested events give the nodes of a document, each in its place, and nothing else. -/
theorem exists_gives (text : String) {events : List (Event × Span)}
    (nested : WellNested [] (events.map Prod.fst)) (filled : ∀ span, (.text "", span) ∉ events) :
    ∃ nodes, Gives (LineIndex.ofText text) events nodes ∧ treeOfEvents text events =
      (Node.root nodes).withPosition ((LineIndex.ofText text).position 0 text.utf8ByteSize) := by
  let fresh := TreeBuilder.mk (LineIndex.ofText text) [] [] none
  obtain ⟨trees, rest, spells, each, closes⟩ := nested.exists_trees
  cases closes
  rw [List.append_nil] at spells
  obtain ⟨nodes, run, gives⟩ := TreeBuilder.lays_trees
    (fun tree member => TreeBuilder.lays (each tree member).1) fresh rfl filled spells
    fun tree _ => TreeBuilder.ready_outside rfl rfl tree.first
  refine ⟨nodes, gives [] .nil, ?_⟩
  rw [TreeBuilder.mark_of_stack_nil rfl] at run
  rw [treeOfEvents, run]
  rfl

end PageTree.Markdown
