import PageTree.Proofs.Markdown.Simulation

/-!
Where the nodes of a document stand. A node stands where its event or the start of its element does. A
text that several events make stands from the first of these to the last, and a paragraph without a tag
from its first child to its last.
-/

namespace PageTree.Markdown

/-- The text that some events make, with task boxes between them. -/
structure Merged (index : LineIndex) (run : List (Event × Span)) (node : Node) : Prop where
  kind : node.kind = .text
  value : node.value = some (String.join (run.map fun event => event.1.said))
  only : ∀ event ∈ run, event.1.isText ∨ ∃ state, event.1 = .task state
  place : ∃ first ∈ run.head?, ∃ last ∈ run.getLast?, first.1.isText ∧ last.1.isText ∧
    node.position = some (index.position first.2.start last.2.stop)
  leaf : node.childList = []

/-- The nodes that events give, each in its place. An image has no children; those that its events
give are only its description. -/
inductive Gives (index : LineIndex) : List (Event × Span) → List Node → Prop
  | nil : Gives index [] []
  | task {events : List (Event × Span)} {nodes : List Node} {state : Bool} {span : Span}
      (before : Gives index events nodes) : Gives index (events ++ [(.task state, span)]) nodes
  | leaf {events : List (Event × Span)} {nodes : List Node} {event : Event} {span : Span}
      {node : Node} (before : Gives index events nodes) (single : event.isLeaf)
      (kind : node.kind ≠ .text) (leaf : node.childList = [])
      (place : node.position = some (index.position span.start span.stop)) :
      Gives index (events ++ [(event, span)]) (nodes ++ [node])
  | text {events run : List (Event × Span)} {nodes : List Node} {node : Node}
      (before : Gives index events nodes) (merged : Merged index run node) :
      Gives index (events ++ run) (nodes ++ [node])
  | literal {events inside : List (Event × Span)} {nodes : List Node} {tag : Tag} {span last : Span}
      {node : Node} (before : Gives index events nodes) (literal : tag.isLiteral)
      (raw : ∀ event ∈ inside, event.1.isRaw) (kind : node.kind = tag.node.kind)
      (leaf : node.childList = [])
      (place : node.position = some (index.position span.start span.stop)) :
      Gives index (events ++ (.start tag, span) :: (inside ++ [(.stop tag.kind, last)]))
        (nodes ++ [node])
  | element {events inside : List (Event × Span)} {nodes children : List Node} {tag : Tag}
      {span last : Span} {node : Node} (before : Gives index events nodes)
      (inner : Gives index inside children) (kind : node.kind = tag.node.kind)
      (kept : node.childList = if tag.kind = .image then [] else children)
      (place : node.position = some (index.position span.start span.stop)) :
      Gives index (events ++ (.start tag, span) :: (inside ++ [(.stop tag.kind, last)]))
        (nodes ++ [node])
  | paragraph {events run : List (Event × Span)} {nodes children : List Node} {node : Node}
      (before : Gives index events nodes) (inner : Gives index run children)
      (inline : ∀ event ∈ run.head?, event.1.isInline) (kind : node.kind = .paragraph)
      (kept : node.childList = children)
      (place : ∃ first ∈ children.head?, ∃ last ∈ children.getLast?, ∃ start ∈ first.position,
        ∃ finish ∈ last.position, node.position = some ⟨start.start, finish.finish⟩) :
      Gives index (events ++ run) (nodes ++ [node])

namespace Gives

variable {index : LineIndex} {events : List (Event × Span)} {nodes : List Node}

theorem exists_position (gives : Gives index events nodes) :
    ∀ node ∈ nodes, ∃ position, node.position = some position := by
  have one : ∀ {nodes : List Node} {node : Node}, (∀ node ∈ nodes, ∃ position, node.position =
      some position) → (∃ position, node.position = some position) →
      ∀ other ∈ nodes ++ [node], ∃ position, other.position = some position := by
    intro nodes node before own
    exact List.forall_mem_append.mpr ⟨before, List.forall_mem_singleton.mpr own⟩
  induction gives with
  | nil => exact nofun
  | task _ ih => exact ih
  | leaf _ _ _ _ place ih => exact one ih ⟨_, place⟩
  | text _ merged ih =>
    obtain ⟨_, -, _, -, -, -, place⟩ := merged.place
    exact one ih ⟨_, place⟩
  | literal _ _ _ _ _ place ih => exact one ih ⟨_, place⟩
  | element _ _ _ _ place ih _ => exact one ih ⟨_, place⟩
  | paragraph _ _ _ _ _ place ih _ =>
    obtain ⟨_, -, _, -, _, -, _, -, place⟩ := place
    exact one ih ⟨_, place⟩

theorem eq_nil (gives : Gives index events nodes) (none : events = []) : nodes = [] := by
  induction gives with
  | nil => rfl
  | task | leaf | literal | element => simp at none
  | text _ merged =>
    obtain ⟨_, head, -⟩ := merged.place
    obtain ⟨-, rfl⟩ := List.append_eq_nil_iff.mp none
    cases head
  | paragraph _ _ _ _ _ place _ ih =>
    obtain ⟨_, head, -⟩ := place
    rw [ih (List.append_eq_nil_iff.mp none).2] at head
    cases head

theorem begins_append {event : Event} {span : Span} {events piece : List (Event × Span)}
    {nodes : List Node} {node : Node} (before : Gives index events nodes)
    (earlier : events.head? = some (event, span) → ∃ first ∈ nodes.head?,
      ∃ position ∈ first.position, position.start = index.point span.start)
    (own : piece.head? = some (event, span) →
      ∃ position ∈ node.position, position.start = index.point span.start)
    (head : (events ++ piece).head? = some (event, span)) : ∃ first ∈ (nodes ++ [node]).head?,
      ∃ position ∈ first.position, position.start = index.point span.start := by
  cases events with
  | nil =>
    rw [before.eq_nil rfl]
    exact ⟨node, rfl, own head⟩
  | cons other events =>
    obtain ⟨first, member, known⟩ := earlier head
    refine ⟨first, ?_, known⟩
    rw [List.head?_append, Option.mem_def.mp member]
    rfl

theorem begins {event : Event} {span : Span} (gives : Gives index events nodes)
    (head : events.head? = some (event, span)) (inline : event.isInline) :
    ∃ first ∈ nodes.head?, ∃ position ∈ first.position, position.start = index.point span.start := by
  induction gives with
  | nil => cases head
  | @task events _ state other before ih =>
    cases events with
    | nil =>
      cases head
      exact absurd inline Bool.false_ne_true
    | cons _ events => exact ih head
  | leaf before _ _ _ place ih =>
    refine before.begins_append ih ?_ head
    rintro ⟨⟩
    exact ⟨_, place, rfl⟩
  | text before merged ih =>
    refine before.begins_append ih ?_ head
    intro known
    obtain ⟨first, member, _, -, -, -, place⟩ := merged.place
    rw [known] at member
    cases member
    exact ⟨_, place, rfl⟩
  | literal before _ _ _ _ place ih =>
    refine before.begins_append ih ?_ head
    rintro ⟨⟩
    exact ⟨_, place, rfl⟩
  | element before _ _ _ place ih _ =>
    refine before.begins_append ih ?_ head
    rintro ⟨⟩
    exact ⟨_, place, rfl⟩
  | paragraph before _ _ _ _ place ih inner =>
    refine before.begins_append ih ?_ head
    intro known
    obtain ⟨first, member, _, -, start, own, _, -, place⟩ := place
    obtain ⟨first', member', position, own', same⟩ := inner known
    obtain rfl := Option.some.inj (member.symm.trans member')
    obtain rfl := Option.some.inj (own.symm.trans own')
    exact ⟨_, place, same⟩

theorem text_of_getLast? (gives : Gives index events nodes) :
    (∀ last ∈ nodes.getLast?, last.kind ≠ .text) ∨ ∃ before run tasks front last,
      events = before ++ (run ++ tasks) ∧ nodes = front ++ [last] ∧ Gives index before front ∧
        Merged index run last ∧ ∀ event ∈ tasks, ∃ state, event.1 = .task state := by
  have apart : ∀ {nodes : List Node} {node : Node}, node.kind ≠ .text →
      ∀ last ∈ (nodes ++ [node]).getLast?, last.kind ≠ .text := by
    intro nodes node kind last member
    rw [List.getLast?_concat] at member
    cases member
    exact kind
  induction gives with
  | nil => exact .inl nofun
  | @task _ _ state span _ ih =>
    refine ih.imp_right ?_
    rintro ⟨before, run, tasks, front, last, rfl, rfl, gives, merged, only⟩
    refine ⟨before, run, tasks ++ [(.task state, span)], front, last, by simp, rfl, gives, merged, ?_⟩
    exact List.forall_mem_append.mpr ⟨only, List.forall_mem_singleton.mpr ⟨state, rfl⟩⟩
  | leaf _ _ kind _ _ => exact .inl (apart kind)
  | text before merged =>
    exact .inr ⟨_, _, [], _, _, by rw [List.append_nil], rfl, before, merged, nofun⟩
  | literal _ _ _ kind _ _ => exact .inl (apart (kind ▸ (Tag.fields_node _).2.1))
  | element _ _ kind _ _ => exact .inl (apart (kind ▸ (Tag.fields_node _).2.1))
  | paragraph _ _ _ kind _ _ => exact .inl (apart (kind ▸ nofun))

end Gives

theorem Merged.single {index : LineIndex} {event : Event} (text : event.isText) (span : Span) :
    Merged index [(event, span)]
      ((Node.text event.said).withPosition (index.position span.start span.stop)) where
  kind := rfl
  value := by simp [Node.text, Node.literal, Node.withPosition]
  only := List.forall_mem_singleton.mpr (.inl text)
  place := ⟨_, rfl, _, rfl, text, text, rfl⟩
  leaf := rfl

theorem Merged.join {index : LineIndex} {run tasks : List (Event × Span)} {node : Node}
    (merged : Merged index run node) (only : ∀ event ∈ tasks, ∃ state, event.1 = .task state)
    {event : Event} (text : event.isText) (span : Span) : ∃ joined,
      TreeBuilder.joinText
        ((Node.text event.said).withPosition (index.position span.start span.stop)) [node] = [joined] ∧
      Merged index (run ++ (tasks ++ [(event, span)])) joined := by
  obtain ⟨first, head, last, -, begins, -, place⟩ := merged.place
  have silent : String.join (tasks.map fun event => event.1.said) = "" := by
    induction tasks with
    | nil => rfl
    | cons task tasks ih =>
      obtain ⟨⟨state, own⟩, others⟩ := List.forall_mem_cons.mp only
      rw [List.map_cons, String.join_cons, ih others, own]
      rfl
  have value : (Node.text event.said).value.getD "" = event.said := rfl
  refine ⟨{ node with
    value := some (String.join (run.map fun event => event.1.said) ++ event.said),
    position := some (index.position first.2.start span.stop) }, ?_, ?_⟩
  · simp only [TreeBuilder.joinText, merged.kind, merged.value, place, Node.withPosition, value]
    rfl
  · constructor
    · exact merged.kind
    · simp [silent]
    · intro other member
      rcases List.mem_append.mp member with old | more
      · exact merged.only other old
      · rcases List.mem_append.mp more with task | new
        · exact .inr (only other task)
        · rw [List.mem_singleton.mp new]
          exact .inl text
    · exact ⟨first, by rw [List.head?_append, Option.mem_def.mp head]; rfl, (event, span), by simp,
        begins, text, rfl⟩
    · exact merged.leaf

theorem Gives.joinText {index : LineIndex} {events : List (Event × Span)} {nodes : List Node}
    (gives : Gives index events nodes) {event : Event} (text : event.isText) (span : Span) :
    Gives index (events ++ [(event, span)]) (TreeBuilder.joinText
      ((Node.text event.said).withPosition (index.position span.start span.stop)) nodes) := by
  rcases gives.text_of_getLast? with apart |
    ⟨before, run, tasks, front, last, rfl, rfl, gives', merged, only⟩
  · rw [TreeBuilder.joinText_of_getLast? apart]
    exact .text gives (.single text span)
  · obtain ⟨joined, same, merged'⟩ := merged.join only text span
    rw [TreeBuilder.joinText_concat, same, List.append_assoc, List.append_assoc]
    exact .text gives' merged'

end PageTree.Markdown
