import PageTree.Markdown.Event

/-!
The trees that a sequence of events spells. A sequence is well nested when each end closes the latest
open element of its kind, no block begins inside an inline element, and elements that are taken as
they are hold nothing but text and markup. Every such sequence spells a list of event trees.
-/

namespace PageTree.Markdown

def Tag.isLiteral (tag : Tag) : Bool :=
  match tag.kind with
  | .code | .html | .metadata => true
  | _ => false

namespace Event

def isSingle : Event → Bool
  | start _ | stop _ => false
  | _ => true

/-- Whether a block begins with the event. -/
def beginsBlock : Event → Bool
  | start tag => !tag.isInline
  | rule | html _ => true
  | _ => false

def isRaw : Event → Bool
  | text _ | html _ => true
  | _ => false

def isText : Event → Bool
  | text _ | softBreak => true
  | _ => false

def isLeaf : Event → Bool
  | code _ | html _ | inlineHtml _ | hardBreak | rule => true
  | footnoteReference _ | inlineMath _ | displayMath _ => true
  | _ => false

/-- The words of an event within a line of text. -/
def said : Event → String
  | text content | code content | inlineHtml content => content
  | inlineMath content | displayMath content => content
  | softBreak => "\n"
  | _ => ""

end Event

/-- Whether an event may stand where the given elements are open, innermost first. -/
structure MayStand (opened : List Tag) (event : Event) : Prop where
  block : event.beginsBlock → ∀ tag ∈ opened, tag.isInline = false
  raw : ∀ tag ∈ opened.head?, tag.isLiteral → event.isRaw

/-- The events that may follow where the given elements are open, to the end of all of them. -/
inductive WellNested : List Tag → List Event → Prop
  | nil : WellNested [] []
  | start {opened : List Tag} {tag : Tag} {events : List Event}
      (stands : MayStand opened (.start tag)) (rest : WellNested (tag :: opened) events) :
      WellNested opened (.start tag :: events)
  | stop {opened : List Tag} {tag : Tag} {events : List Event} (rest : WellNested opened events) :
      WellNested (tag :: opened) (.stop tag.kind :: events)
  | single {opened : List Tag} {event : Event} {events : List Event} (single : event.isSingle)
      (stands : MayStand opened event) (rest : WellNested opened events) :
      WellNested opened (event :: events)

theorem mayStand_iff {opened : List Tag} {event : Event} : MayStand opened event ↔
    (event.beginsBlock → ∀ tag ∈ opened, tag.isInline = false) ∧
      ∀ tag ∈ opened.head?, tag.isLiteral → event.isRaw :=
  ⟨fun stands => ⟨stands.block, stands.raw⟩, fun stands => ⟨stands.1, stands.2⟩⟩

instance (opened : List Tag) (event : Event) : Decidable (MayStand opened event) :=
  decidable_of_iff _ mayStand_iff.symm

namespace WellNested

theorem start_iff {opened : List Tag} {tag : Tag} {events : List Event} :
    WellNested opened (.start tag :: events) ↔
      MayStand opened (.start tag) ∧ WellNested (tag :: opened) events := by
  constructor
  · intro nested
    cases nested with
    | start stands rest => exact ⟨stands, rest⟩
    | single single => exact absurd single Bool.false_ne_true
  · exact fun parts => .start parts.1 parts.2

theorem stop_iff {opened : List Tag} {kind : TagKind} {events : List Event} :
    WellNested opened (.stop kind :: events) ↔
      opened.head?.map Tag.kind = some kind ∧ WellNested opened.tail events := by
  constructor
  · intro nested
    cases nested with
    | stop rest => exact ⟨rfl, rest⟩
    | single single => exact absurd single Bool.false_ne_true
  · intro parts
    cases opened with
    | nil => exact nomatch parts.1
    | cons tag opened =>
      obtain rfl : tag.kind = kind := Option.some.inj parts.1
      exact .stop parts.2

theorem single_iff {opened : List Tag} {event : Event} {events : List Event}
    (single : event.isSingle) : WellNested opened (event :: events) ↔
      MayStand opened event ∧ WellNested opened events := by
  constructor
  · intro nested
    cases nested with
    | start | stop => exact absurd single Bool.false_ne_true
    | single _ stands rest => exact ⟨stands, rest⟩
  · exact fun parts => .single single parts.1 parts.2

instance decidable : (opened : List Tag) → (events : List Event) →
    Decidable (WellNested opened events)
  | [], [] => .isTrue .nil
  | _ :: _, [] => .isFalse nofun
  | opened, event :: events =>
    match event with
    | .start tag =>
      have := decidable (tag :: opened) events
      decidable_of_iff _ start_iff.symm
    | .stop _ =>
      have := decidable opened.tail events
      decidable_of_iff _ stop_iff.symm
    | .text _ | .code _ | .html _ | .inlineHtml _ | .softBreak | .hardBreak | .rule
    | .footnoteReference _ | .task _ | .inlineMath _ | .displayMath _ =>
      have := decidable opened events
      decidable_of_iff _ (single_iff rfl).symm

end WellNested

/-- An event that stands for itself, or an element with what is in it. -/
inductive EventTree where
  | single (event : Event)
  | element (tag : Tag) (inside : List EventTree)

namespace EventTree

def first : EventTree → Event
  | single event => event
  | element tag _ => .start tag

mutual

def events : EventTree → List Event
  | single event => [event]
  | element tag inside => .start tag :: (eventsOf inside ++ [.stop tag.kind])

def eventsOf : List EventTree → List Event
  | [] => []
  | tree :: trees => tree.events ++ eventsOf trees

end

/-- A tree in which every event stands where it may. -/
inductive Proper : EventTree → Prop
  | single {event : Event} (single : event.isSingle) : Proper (.single event)
  | element {tag : Tag} {inside : List EventTree}
      (inline : tag.isInline → ∀ tree ∈ inside, tree.first.beginsBlock = false)
      (literal : tag.isLiteral → ∀ tree ∈ inside, tree.first.isRaw)
      (each : ∀ tree ∈ inside, Proper tree) : Proper (.element tag inside)

@[simp] theorem proper_single {event : Event} : Proper (.single event) ↔ event.isSingle := by
  constructor
  · rintro ⟨single⟩
    assumption
  · exact .single

@[simp] theorem proper_element {tag : Tag} {inside : List EventTree} :
    Proper (.element tag inside) ↔
      (tag.isInline → ∀ tree ∈ inside, tree.first.beginsBlock = false) ∧
      (tag.isLiteral → ∀ tree ∈ inside, tree.first.isRaw) ∧ ∀ tree ∈ inside, Proper tree := by
  constructor
  · rintro (_ | ⟨inline, literal, each⟩)
    exact ⟨inline, literal, each⟩
  · exact fun parts => .element parts.1 parts.2.1 parts.2.2

theorem events_eq_cons (tree : EventTree) : ∃ rest, tree.events = tree.first :: rest := by
  cases tree with
  | single event => exact ⟨[], by rw [events, first]⟩
  | element tag inside => exact ⟨_, by rw [events, first]⟩

end EventTree

open EventTree (eventsOf Proper)

/-- The end of the innermost open element and what follows it, or nothing if none is open. -/
inductive Closes : List Tag → List Event → Prop
  | nil : Closes [] []
  | cons {tag : Tag} {opened : List Tag} {events : List Event} (rest : WellNested opened events) :
      Closes (tag :: opened) (.stop tag.kind :: events)

/-- Well nested events are those of some trees, followed by the end of the innermost open element. -/
theorem WellNested.exists_trees {opened : List Tag} {events : List Event}
    (nested : WellNested opened events) : ∃ trees rest, events = eventsOf trees ++ rest ∧
      (∀ tree ∈ trees, tree.Proper ∧ MayStand opened tree.first) ∧ Closes opened rest := by
  -- An element takes the trees up to its end, and the events after that end are again well nested
  -- but no part of the derivation, so the induction is on the number of events.
  induction length : events.length using Nat.strongRecOn generalizing opened events with
  | ind count ih =>
    cases nested with
    | nil => exact ⟨[], [], rfl, by simp, .nil⟩
    | @stop opened tag events rest => exact ⟨[], _, rfl, by simp, .cons rest⟩
    | @single _ event events single stands rest =>
      obtain ⟨trees, after, same, each, closes⟩ :=
        ih events.length (by rw [← length, List.length_cons]; omega) rest rfl
      refine ⟨.single event :: trees, after, ?_, ?_, closes⟩
      · rw [eventsOf, EventTree.events, same]
        rfl
      · exact List.forall_mem_cons.mpr ⟨⟨.single single, stands⟩, each⟩
    | @start _ tag events stands rest =>
      obtain ⟨inside, after, same, each, closes⟩ :=
        ih events.length (by rw [← length, List.length_cons]; omega) rest rfl
      cases closes with
      | @cons _ _ later outer =>
        have shorter : later.length < count := by
          rw [← length, same, List.length_cons, List.length_append, List.length_cons]
          omega
        obtain ⟨trees, last, sameLater, others, closes⟩ := ih later.length shorter outer rfl
        refine ⟨.element tag inside :: trees, last, ?_, ?_, closes⟩
        · rw [eventsOf, EventTree.events, same, sameLater]
          simp
        · refine List.forall_mem_cons.mpr ⟨⟨.element ?_ ?_ fun tree member => (each tree member).1,
            stands⟩, others⟩
          · intro inline tree member
            cases begins : tree.first.beginsBlock with
            | false => rfl
            | true =>
              have plain := (each tree member).2.block begins tag List.mem_cons_self
              exact absurd (plain.symm.trans inline) Bool.false_ne_true
          · intro literal tree member
            exact (each tree member).2.raw tag rfl literal

end PageTree.Markdown
