import PageTree.Proofs.Json.Fields
import PageTree.Proofs.Markdown.Bare
import PageTree.Proofs.Markdown.Translation

/-!
What the tree builder does to the elements that are open. Parts go into the innermost one, and a task
box marks the nearest item. The two do not disturb each other, since a mark is a field of the item
and parts are its children, so all boxes of an item may be read after everything else in it.
-/

namespace PageTree.Markdown

theorem Tag.fields_node (tag : Tag) : tag.node.position = none ∧ tag.node.kind ≠ .text ∧
    (tag.node.kind = .listItem ↔ tag.kind = .item) ∧
    tag.node.children = (if tag.isLiteral then none else some []) ∧
    tag.node.value = if tag.isLiteral then some "" else none := by
  have title : ∀ (node : Node) (title : String), (withTitle node title).position = node.position ∧
      (withTitle node title).kind = node.kind ∧ (withTitle node title).children = node.children ∧
      (withTitle node title).value = node.value := by
    intro node title
    unfold withTitle
    split <;> exact ⟨rfl, rfl, rfl, rfl⟩
  cases tag with
  | heading level id classes =>
    simp only [node, headingNode]
    cases id <;> (split <;> exact ⟨rfl, nofun, ⟨nofun, nofun⟩, rfl, rfl⟩)
  | list start => cases start <;> exact ⟨rfl, nofun, ⟨nofun, nofun⟩, rfl, rfl⟩
  | link form target title' =>
    simp only [node, linkNode]
    split
    · exact ⟨rfl, nofun, ⟨nofun, nofun⟩, rfl, rfl⟩
    · obtain ⟨position, kind, children, value⟩ := title (Node.link target []) title'
      rw [position, kind, children, value]
      exact ⟨rfl, nofun, ⟨nofun, nofun⟩, rfl, rfl⟩
  | image form target title' =>
    simp only [node]
    obtain ⟨position, kind, children, value⟩ :=
      title { Node.parent .image [] with url := some target } title'
    rw [position, kind, children, value]
    exact ⟨rfl, nofun, ⟨nofun, nofun⟩, rfl, rfl⟩
  | item => exact ⟨rfl, nofun, ⟨fun _ => rfl, fun _ => rfl⟩, rfl, rfl⟩
  | _ => exact ⟨rfl, nofun, ⟨nofun, nofun⟩, rfl, rfl⟩

theorem Tag.childList_node (tag : Tag) : tag.node.childList = [] := by
  obtain ⟨-, -, -, children, -⟩ := tag.fields_node
  rw [Node.childList, children]
  split <;> rfl

theorem Tag.bare_node (tag : Tag) : tag.node.bare = tag.node :=
  Node.bare_eq_self tag.fields_node.1 tag.childList_node

theorem withChildren_eq_self {node : Node} {nodes : List Node} (known : node.children = some nodes) :
    { node with children := some nodes } = node := by
  obtain ⟨kind, children, value, url, label, position, data, rest⟩ := node
  exact congrArg (Node.mk kind · value url label position data rest) known.symm

/-- A part whose node is no text, so that no text joins it. -/
def Part.Solid : Part → Prop
  | inline node | block node => node.kind ≠ .text
  | _ => True

namespace TreeBuilder

open PageTree.Markdown.Part (textNodes joinTexts)

@[simp] theorem content_withContent (b : TreeBuilder) (nodes : List Node) :
    (b.withContent nodes).content = nodes := by
  obtain ⟨index, stack, roots, implicit⟩ := b
  cases stack <;> rfl

@[simp] theorem withContent_withContent (b : TreeBuilder) (nodes others : List Node) :
    (b.withContent nodes).withContent others = b.withContent others := by
  obtain ⟨index, stack, roots, implicit⟩ := b
  cases stack <;> rfl

def add (b : TreeBuilder) : Part → TreeBuilder
  | .text content =>
    if content.isEmpty then b else b.withContent (joinText (Node.text content) b.content)
  | .inline node | .block node => b.addNode node
  | .nothing => b

def addAll (b : TreeBuilder) (parts : List Part) : TreeBuilder := parts.foldl add b

theorem joinText_of_getLast? {nodes : List Node}
    (apart : ∀ last ∈ nodes.getLast?, last.kind ≠ .text) (text : Node) :
    joinText text nodes = nodes ++ [text] := by
  induction nodes with
  | nil => rfl
  | cons node rest ih =>
    cases rest with
    | nil =>
      have kind : node.kind ≠ .text := apart node rfl
      unfold joinText
      split
      · next isText _ => exact absurd isText kind
      · rfl
    | cons second rest => exact congrArg (node :: ·) (ih apart)

theorem joinText_concat (text : Node) (nodes : List Node) (last : Node) :
    joinText text (nodes ++ [last]) = nodes ++ joinText text [last] := by
  induction nodes with
  | nil => rfl
  | cons node rest ih => cases rest <;> exact congrArg (node :: ·) ih

theorem joinText_append_text (nodes : List Node) (before content : String) :
    joinText (Node.text content) (nodes ++ [Node.text before]) =
      nodes ++ [Node.text (before ++ content)] := joinText_concat _ nodes _

theorem joinText_textNodes {nodes : List Node}
    (apart : ∀ last ∈ nodes.getLast?, last.kind ≠ .text) (before : String) {content : String}
    (some : content.isEmpty = false) : joinText (Node.text content) (nodes ++ textNodes before) =
      nodes ++ textNodes (before ++ content) := by
  have joined : (before ++ content).isEmpty = false := by
    simp only [String.isEmpty_eq_false_iff] at some ⊢
    simp [some]
  rw [textNodes, textNodes, joined]
  cases none : before.isEmpty with
  | true =>
    have empty : before = "" := String.isEmpty_iff.mp none
    rw [if_pos rfl, List.append_nil, joinText_of_getLast? apart, empty, String.empty_append]
    rfl
  | false => exact joinText_append_text nodes before content

/-- Parts that are added one by one join their texts as the texts of all of them are joined. -/
theorem addAll_withContent (b : TreeBuilder) {nodes : List Node} {parts : List Part}
    (apart : ∀ last ∈ nodes.getLast?, last.kind ≠ .text) (solid : ∀ part ∈ parts, part.Solid)
    (before : String) : (b.withContent (nodes ++ textNodes before)).addAll parts =
      b.withContent (nodes ++ joinTexts before parts) := by
  induction parts generalizing nodes before with
  | nil => rfl
  | cons part rest ih =>
    obtain ⟨own, others⟩ := List.forall_mem_cons.mp solid
    have node : ∀ node : Node, node.kind ≠ .text →
        ((b.withContent (nodes ++ textNodes before)).addNode node).addAll rest =
          b.withContent (nodes ++ (textNodes before ++ node :: joinTexts "" rest)) := by
      intro node kind
      have last : ∀ last ∈ (nodes ++ textNodes before ++ [node]).getLast?, last.kind ≠ .text := by
        simpa using kind
      have done := ih last others ""
      rw [addNode_eq, content_withContent, withContent_withContent]
      simpa [textNodes] using done
    cases part with
    | text content =>
      have step : ((b.withContent (nodes ++ textNodes before)).add (.text content)) =
          b.withContent (nodes ++ textNodes (before ++ content)) := by
        cases some : content.isEmpty with
        | true => simp [add, String.isEmpty_iff.mp some]
        | false => simp [add, some, joinText_textNodes apart before some]
      calc (b.withContent (nodes ++ textNodes before)).addAll (.text content :: rest)
          = (b.withContent (nodes ++ textNodes (before ++ content))).addAll rest :=
            congrArg (addAll · rest) step
        _ = b.withContent (nodes ++ joinTexts before (.text content :: rest)) :=
            ih apart others (before ++ content)
    | inline inner => exact node inner own
    | block inner => exact node inner own
    | nothing => exact ih apart others before

theorem addAll_append (b : TreeBuilder) (parts others : List Part) :
    b.addAll (parts ++ others) = (b.addAll parts).addAll others := List.foldl_append

theorem addAll_push (b : TreeBuilder) {node : Node} {parts : List Part}
    (empty : node.children = some []) (solid : ∀ part ∈ parts, part.Solid) :
    (b.push node).addAll parts =
      b.push { node with children := some (joinTexts "" parts) } := by
  have same := withChildren_eq_self empty
  have none : ∀ last ∈ ([] : List Node).getLast?, last.kind ≠ .text := nofun
  calc (b.push node).addAll parts = (b.push { node with children := some [] }).addAll parts := by
        rw [same]
    _ = b.push { node with children := some (joinTexts "" parts) } :=
        addAll_withContent (b.push node) none solid ""

theorem mark_mark (b : TreeBuilder) (tasks others : List Bool) :
    (b.mark tasks).mark others = b.mark (tasks ++ others) := by
  simp [mark, List.foldl_append]

theorem mark_cons (b : TreeBuilder) (state : Bool) (tasks : List Bool) :
    b.mark (state :: tasks) = (b.mark [state]).mark tasks := (mark_mark b [state] tasks).symm

theorem mark_push (b : TreeBuilder) {node : Node} (kind : node.kind ≠ .listItem)
    (tasks : List Bool) : (b.push node).mark tasks = (b.mark tasks).push node := by
  induction tasks generalizing b with
  | nil => rfl
  | cons state tasks ih =>
    have one : (b.push node).mark [state] = (b.mark [state]).push node := by
      simp [mark, push, checkItem, kind]
    rw [mark_cons, one, ih, ← mark_cons]

theorem checked_cons (state : Bool) (tasks : List Bool) (item : Node) :
    checked (state :: tasks) item = checked tasks (item.withField "checked" (.bool state)) := by
  have again : ∀ last : Bool, item.withField "checked" (.bool last) =
      (item.withField "checked" (.bool state)).withField "checked" (.bool last) := by
    intro last
    rw [Node.withField, Node.withField, Node.withField, Json.Fields.put_put]
  unfold checked
  rw [List.getLast?_cons]
  cases tasks.getLast? with
  | none => rfl
  | some last => exact again last

/-- The last task box of an item decides. -/
theorem mark_push_item (b : TreeBuilder) {item : Node} (kind : item.kind = .listItem)
    (tasks : List Bool) : (b.push item).mark tasks = b.push (checked tasks item) := by
  induction tasks generalizing item with
  | nil => rfl
  | cons state tasks ih =>
    have one : (b.push item).mark [state] = b.push (item.withField "checked" (.bool state)) := by
      simp [mark, push, checkItem, kind]
    have still : (item.withField "checked" (.bool state)).kind = .listItem := kind
    rw [mark_cons, one, ih still, checked_cons]

theorem mark_of_stack_nil {b : TreeBuilder} (none : b.stack = []) (tasks : List Bool) :
    b.mark tasks = b := by
  have still : tasks.foldl (fun stack state => checkItem state stack) [] = [] := by
    induction tasks with
    | nil => rfl
    | cons state tasks ih => exact ih
  rw [mark, none, still, ← none]

theorem forall_mem_checkItem {p : Node → Prop} {checked : Bool}
    (marks : ∀ node, p node → p (node.withField "checked" (.bool checked))) {stack : List Node}
    (each : ∀ node ∈ stack, p node) : ∀ node ∈ checkItem checked stack, p node := by
  induction stack with
  | nil => exact each
  | cons node outer ih =>
    obtain ⟨first, others⟩ := List.forall_mem_cons.mp each
    rw [checkItem]
    split
    · exact List.forall_mem_cons.mpr ⟨marks node first, others⟩
    · exact List.forall_mem_cons.mpr ⟨first, ih others⟩

theorem checkItem_cons (state : Bool) (top : Node) (outer : List Node) :
    ∃ marked below, checkItem state (top :: outer) = marked :: below ∧
      marked.kind = top.kind ∧ marked.childList = top.childList ∧ marked.value = top.value ∧
      ∀ nodes, checkItem state ({ top with children := some nodes } :: outer) =
        { marked with children := some nodes } :: below := by
  by_cases kind : top.kind = .listItem
  · exact ⟨top.withField "checked" (.bool state), outer, by rw [checkItem, if_pos kind], rfl, rfl,
      rfl, fun nodes => by rw [checkItem, if_pos kind]; rfl⟩
  · exact ⟨top, checkItem state outer, by rw [checkItem, if_neg kind], rfl, rfl, rfl,
      fun nodes => by rw [checkItem, if_neg kind]⟩

def front (b : TreeBuilder) : Option (Kind × Option String) :=
  b.stack.head?.map fun top => (top.kind, top.value)

theorem mark_one (b : TreeBuilder) (state : Bool) : (b.mark [state]).content = b.content ∧
    (b.mark [state]).front = b.front ∧
    ∀ nodes, (b.mark [state]).withContent nodes = (b.withContent nodes).mark [state] := by
  obtain ⟨index, stack, roots, implicit⟩ := b
  cases stack with
  | nil => exact ⟨rfl, rfl, fun _ => rfl⟩
  | cons top outer =>
    obtain ⟨marked, below, same, kind, children, value, others⟩ := checkItem_cons state top outer
    simp [mark, content, front, withContent, same, kind, children, value, others]

@[simp] theorem content_mark (b : TreeBuilder) (tasks : List Bool) :
    (b.mark tasks).content = b.content := by
  induction tasks generalizing b with
  | nil => rfl
  | cons state tasks ih => rw [mark_cons, ih, (mark_one b state).1]

@[simp] theorem front_mark (b : TreeBuilder) (tasks : List Bool) :
    (b.mark tasks).front = b.front := by
  induction tasks generalizing b with
  | nil => rfl
  | cons state tasks ih => rw [mark_cons, ih, (mark_one b state).2.1]

theorem withContent_mark (b : TreeBuilder) (tasks : List Bool) (nodes : List Node) :
    (b.mark tasks).withContent nodes = (b.withContent nodes).mark tasks := by
  induction tasks generalizing b with
  | nil => rfl
  | cons state tasks ih => rw [mark_cons, ih, (mark_one b state).2.2, ← mark_cons]

theorem length_mark (b : TreeBuilder) (tasks : List Bool) :
    (b.mark tasks).stack.length = b.stack.length := by
  have one : ∀ (state : Bool) (stack : List Node),
      (checkItem state stack).length = stack.length := by
    intro state stack
    induction stack with
    | nil => rfl
    | cons top outer ih =>
      rw [checkItem]
      split
      · rfl
      · rw [List.length_cons, ih, List.length_cons]
  induction tasks generalizing b with
  | nil => rfl
  | cons state tasks ih =>
    rw [mark_cons, ih]
    exact one state b.stack

@[simp] theorem implicit_mark (b : TreeBuilder) (tasks : List Bool) :
    (b.mark tasks).implicit = b.implicit := rfl

@[simp] theorem front_withContent (b : TreeBuilder) (nodes : List Node) :
    (b.withContent nodes).front = b.front := by
  obtain ⟨index, stack, roots, implicit⟩ := b
  cases stack <;> rfl

@[simp] theorem implicit_withContent (b : TreeBuilder) (nodes : List Node) :
    (b.withContent nodes).implicit = b.implicit := by
  obtain ⟨index, stack, roots, implicit⟩ := b
  cases stack <;> rfl

@[simp] theorem front_bare (b : TreeBuilder) : b.bare.front = b.front := by
  obtain ⟨index, stack, roots, implicit⟩ := b
  cases stack <;> simp [bare, front]

theorem addNode_mark (b : TreeBuilder) (node : Node) (tasks : List Bool) :
    (b.mark tasks).addNode node = (b.addNode node).mark tasks := by
  rw [addNode_eq, content_mark, withContent_mark, ← addNode_eq]

theorem add_mark (b : TreeBuilder) (part : Part) (tasks : List Bool) :
    (b.mark tasks).add part = (b.add part).mark tasks := by
  cases part with
  | text content =>
    rw [add, add, content_mark, withContent_mark]
    split <;> rfl
  | inline node => exact addNode_mark b node tasks
  | block node => exact addNode_mark b node tasks
  | nothing => rfl

theorem addAll_mark (b : TreeBuilder) (parts : List Part) (tasks : List Bool) :
    (b.mark tasks).addAll parts = (b.addAll parts).mark tasks := by
  induction parts generalizing b with
  | nil => rfl
  | cons part parts ih =>
    calc (b.mark tasks).addAll (part :: parts) = ((b.mark tasks).add part).addAll parts := rfl
      _ = ((b.add part).mark tasks).addAll parts := by rw [add_mark]
      _ = (b.addAll (part :: parts)).mark tasks := ih (b.add part)

theorem add_eq_withContent (b : TreeBuilder) (part : Part) :
    b.add part = b ∨ ∃ nodes, b.add part = b.withContent nodes := by
  cases part with
  | text content =>
    rw [add]
    by_cases empty : content.isEmpty
    · exact .inl (if_pos empty)
    · exact .inr ⟨_, if_neg empty⟩
  | inline node => exact .inr ⟨_, addNode_eq b node⟩
  | block node => exact .inr ⟨_, addNode_eq b node⟩
  | nothing => exact .inl rfl

@[simp] theorem front_add (b : TreeBuilder) (part : Part) : (b.add part).front = b.front := by
  obtain same | ⟨nodes, same⟩ := add_eq_withContent b part
  · rw [same]
  · rw [same, front_withContent]

@[simp] theorem implicit_add (b : TreeBuilder) (part : Part) :
    (b.add part).implicit = b.implicit := by
  obtain same | ⟨nodes, same⟩ := add_eq_withContent b part
  · rw [same]
  · rw [same, implicit_withContent]

end TreeBuilder

end PageTree.Markdown
