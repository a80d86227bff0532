import PageTree.Markdown.Reading
import PageTree.Proofs.Markdown.Adding
import PageTree.Proofs.Markdown.Numbers
import PageTree.Proofs.Markdown.Positions
import PageTree.Proofs.Tree.Storable

/-!
The tree of a text can be stored. The events of a text carry small numbers and lie within the text;
from such events the tree builder makes nodes whose positions and numbers a machine word holds and
whose further fields have names of their own.
-/

namespace PageTree.Markdown

open Json (u64Bound)
open Node (StorableHere Storable storableHere_of_fields knownNames)

theorem Inline.list_induction {motive : List Inline → Prop} (nil : motive [])
    (cons : ∀ mark start stop children rest, motive children → motive rest →
      motive (⟨mark, start, stop, children⟩ :: rest)) : ∀ pieces, motive pieces
  | [] => nil
  | ⟨mark, start, stop, children⟩ :: rest =>
    cons mark start stop children rest (list_induction nil cons children)
      (list_induction nil cons rest)

theorem Block.list_induction {motive : List Block → Prop} (nil : motive [])
    (cons : ∀ kind start stop pieces blocks rest, motive blocks → motive rest →
      motive (⟨kind, start, stop, pieces, blocks⟩ :: rest)) : ∀ blocks, motive blocks
  | [] => nil
  | ⟨kind, start, stop, pieces, blocks⟩ :: rest =>
    cons kind start stop pieces blocks rest (list_induction nil cons blocks)
      (list_induction nil cons rest)

def Tag.Small : Tag → Prop
  | .heading level _ _ => level < u64Bound
  | .list (some number) => number < u64Bound
  | _ => True

def Event.Small : Event → Prop
  | .start tag => tag.Small
  | _ => True

theorem Event.small_start {tag : Tag} (small : tag.Small) : (start tag).Small := small

theorem Event.small_stop (kind : TagKind) : (stop kind).Small := trivial

theorem Event.small_rule : rule.Small := trivial

/-- An event with small numbers whose span lies within a text of the given length. -/
structure Fitting (length : Nat) (event : Event × Span) : Prop where
  small : event.1.Small
  within : event.2.Within length

namespace EventReader

variable {r : EventReader} {length : Nat} (offsets : ∀ offset ∈ r.offsets, offset ≤ length)

theorem small_of_tag? {kind : BlockKind} (small : kind.Small) {tag : Tag}
    (own : tag? kind = some tag) : tag.Small := by
  cases kind with
  | heading level id classes =>
    cases own
    exact small
  | list tight mark number =>
    simp only [tag?] at own
    cases own
    split
    · exact small
    · trivial
  | paragraph tight =>
    cases tight <;> cases own
    trivial
  | rule => cases own
  | _ =>
    cases own
    trivial

theorem small_reading (mark : Mark) (start stop : Nat) :
    (∀ event, r.reading mark start stop = .leaf event → event.Small) ∧
      ∀ tag, r.reading mark start stop = .element tag → tag.Small := by
  constructor
  · intro event same
    unfold reading at same
    split at same <;> cases same <;> trivial
  · intro tag same
    unfold reading at same
    split at same <;> cases same <;> trivial

include offsets

theorem fitting_push {events : Events} (fitting : ∀ event ∈ events, Fitting length event)
    {event : Event} (small : event.Small) (start stop : Nat) :
    ∀ other ∈ events.push (event, r.span start stop), Fitting length other := by
  intro other member
  rcases Array.mem_push.mp member with old | rfl
  · exact fitting other old
  · exact ⟨small, span_within offsets start stop⟩

theorem fitting_readInlines {events : Events} (fitting : ∀ event ∈ events, Fitting length event)
    (pieces : List Inline) : ∀ event ∈ r.readInlines events pieces, Fitting length event := by
  induction pieces using Inline.list_induction generalizing events with
  | nil =>
    rw [readInlines]
    exact fitting
  | cons mark start stop children rest inside after =>
    rw [readInlines]
    apply after
    split
    · next event same =>
      exact fitting_push offsets fitting ((small_reading mark start stop).1 event same) start stop
    · next tag same =>
      have small := (small_reading mark start stop).2 tag same
      refine fitting_push offsets (inside ?_) (Event.small_stop tag.kind) start stop
      exact fitting_push offsets fitting (Event.small_start small) start stop

theorem fitting_readBlocks {spine : List Container} {inTable : Bool} {events : Events}
    (fitting : ∀ event ∈ events, Fitting length event) {blocks : List Block}
    (small : ∀ block ∈ blocks, block.Small) :
    ∀ event ∈ r.readBlocks spine inTable events blocks, Fitting length event := by
  induction blocks using Block.list_induction generalizing spine inTable events with
  | nil =>
    rw [readBlocks]
    exact fitting
  | cons kind start stop pieces blocks rest inside after =>
    obtain ⟨own, others⟩ := List.forall_mem_cons.mp small
    obtain ⟨kindSmall, blocksSmall⟩ := own
    rw [readBlocks]
    apply after _ others
    cases known : tag? kind with
    | none =>
      refine inside (fitting_readInlines offsets ?_ _) blocksSmall
      dsimp only
      split
      · exact fitting_push offsets fitting Event.small_rule start stop
      · exact fitting
    | some tag =>
      have small := Event.small_start (small_of_tag? kindSmall known)
      refine fitting_push offsets (inside (fitting_readInlines offsets ?_ _) blocksSmall)
        (Event.small_stop tag.kind) start stop
      exact fitting_push offsets fitting small start stop

end EventReader

theorem fitting_readEvents (extensions : Extensions) (text : String) :
    ∀ event ∈ readEvents extensions text, Fitting text.utf8ByteSize event := by
  have offsets : ∀ offset ∈ byteOffsets (Source.ofText text), offset ≤ text.utf8ByteSize := by
    intro offset member
    have bound := le_of_mem_byteOffsets member
    rwa [Source.ofText, ← LineIndex.utf8ByteSize_eq] at bound
  have small := (BlockReader.small_read ⟨Source.ofText text, extensions⟩).blocks
  intro event member
  exact EventReader.fitting_readBlocks offsets (by simp)
    (fun block inside => small block (Array.mem_toList_iff.mp inside)) event
    (Array.mem_toList_iff.mp member)

namespace Tag

theorem storableHere_withTitle {node : Node} (here : node.StorableHere) (title : String) :
    (withTitle node title).StorableHere := by
  unfold withTitle
  split
  · exact here
  · exact here.withField (by decide) (Json.Plain.lossless trivial)

theorem storableHere_withIdentifier {node : Node} (here : node.StorableHere) (label : String) :
    (withIdentifier node label).StorableHere :=
  here.withField (by decide) (Json.Plain.lossless trivial)

theorem storableHere_headingNode {level : Nat} (word : level < u64Bound) (id : Option String)
    (classes : List String) : (headingNode level id classes).StorableHere := by
  have plain : (Node.parent .heading []).StorableHere :=
    storableHere_of_fields rfl rfl rfl rfl
  have leveled : (Node.heading level []).StorableHere :=
    plain.withField (by decide) (Json.lossless_nat word)
  have classed : ∀ {node : Node}, node.StorableHere → StorableHere (if classes.isEmpty then node
      else node.putProperty "class" (.str (" ".intercalate classes))) := by
    intro node here
    split
    · exact here
    · exact here.putProperty "class" (Json.Plain.lossless trivial)
  cases id with
  | none => exact classed leveled
  | some id => exact classed (leveled.putProperty "id" (Json.Plain.lossless trivial))

theorem storableHere_listNode {start : Option Nat} (small : (list start).Small) :
    (listNode start).StorableHere := by
  have plain : (Node.parent .list []).StorableHere :=
    storableHere_of_fields rfl rfl rfl rfl
  have ordered := plain.withField (show "ordered" ∉ knownNames by decide)
    (Json.Plain.lossless (show (Json.bool start.isSome).Plain from trivial))
  have spread := ordered.withField (show "spread" ∉ knownNames by decide)
    (Json.Plain.lossless (show (Json.bool false).Plain from trivial))
  cases start with
  | none => exact spread
  | some number => exact spread.withField (by decide) (Json.lossless_nat small)

theorem storableHere_linkNode (form : LinkForm) (target title : String) :
    (linkNode form target title).StorableHere := by
  unfold linkNode
  split
  · have plain : (Node.linkReference target []).StorableHere :=
      storableHere_of_fields rfl rfl rfl rfl
    exact (storableHere_withIdentifier plain target).withField (by decide)
      (Json.Plain.lossless trivial)
  · exact storableHere_withTitle
      (storableHere_of_fields rfl rfl rfl rfl) title

theorem sound_infoFields (info : String) : (infoFields info).Sound := by
  unfold infoFields
  split
  · exact Json.Fields.sound_nil
  · dsimp only
    generalize String.ofList (info.toList.span (· ≠ ' ')).1 = lang
    have first := Json.Fields.sound_nil.put "lang"
      (Json.Plain.lossless (show (Json.str lang).Plain from trivial))
    split
    · exact first
    · exact first.put "meta" (Json.Plain.lossless trivial)

theorem names_infoFields (info : String) :
    ∀ name ∈ Json.Fields.names (infoFields info), name ∉ knownNames := by
  unfold infoFields
  split
  · simp [Json.Fields.names]
  · dsimp only
    split <;> simp [Json.Fields.names, knownNames]

theorem plain_alignmentJson (alignment : Alignment) : (alignmentJson alignment).Plain := by
  cases alignment <;> trivial

theorem storableHere_node {tag : Tag} (small : tag.Small) : tag.node.StorableHere := by
  cases tag with
  | heading level id classes => exact storableHere_headingNode small id classes
  | list start => exact storableHere_listNode small
  | code info =>
    have plain : (Node.literal .code "").StorableHere := storableHere_of_fields rfl rfl rfl rfl
    exact plain.withRest (sound_infoFields _) (names_infoFields _)
  | item =>
    have plain : (Node.parent .listItem []).StorableHere := storableHere_of_fields rfl rfl rfl rfl
    exact plain.withField (by decide) (Json.Plain.lossless trivial)
  | footnote label =>
    have plain : ({ Node.parent .footnoteDefinition [] with label := some label }).StorableHere :=
      storableHere_of_fields rfl rfl rfl rfl
    exact storableHere_withIdentifier plain label
  | table alignments =>
    have plain : (Node.parent .table []).StorableHere := storableHere_of_fields rfl rfl rfl rfl
    refine plain.withField (by decide) (Json.lossless_arr fun item member => ?_)
    obtain ⟨alignment, -, rfl⟩ := List.mem_map.mp member
    exact (plain_alignmentJson alignment).lossless
  | link form target title => exact storableHere_linkNode form target title
  | image form target title =>
    have plain : ({ Node.parent .image [] with url := some target }).StorableHere :=
      storableHere_of_fields rfl rfl rfl rfl
    exact storableHere_withTitle plain title
  | _ => exact storableHere_of_fields rfl rfl rfl rfl

theorem storable_node {tag : Tag} (small : tag.Small) : tag.node.Storable :=
  (storableHere_node small).storable (childList_node tag)

end Tag

namespace TreeBuilder

/-- A builder for a text all of whose nodes, open or finished, can be stored. -/
structure Stored (text : String) (b : TreeBuilder) : Prop where
  index : b.index = LineIndex.ofText text
  stack : ∀ node ∈ b.stack, node.Storable
  roots : ∀ node ∈ b.roots, node.Storable

theorem storable_fitToChildren {node : Node} (storable : node.Storable) :
    (fitToChildren node).Storable := by
  unfold fitToChildren
  split
  · next position last before after =>
    obtain ⟨child, isLast, place⟩ := Option.bind_eq_some_iff.mp after
    have own := storable.here.formed.position position before
    have inside := (storable.child child (List.mem_of_getLast? isLast)).here.formed.position last
      place
    exact storable.withPosition ⟨own.start, inside.finish⟩
  · exact storable

theorem storable_joinText {text : Node} (own : text.Storable) {nodes : List Node}
    (each : ∀ node ∈ nodes, node.Storable) : ∀ node ∈ joinText text nodes, node.Storable := by
  induction nodes with
  | nil => exact List.forall_mem_singleton.mpr own
  | cons node rest ih =>
    obtain ⟨first, others⟩ := List.forall_mem_cons.mp each
    cases rest with
    | nil =>
      unfold joinText
      split
      · next value kind known =>
        refine List.forall_mem_singleton.mpr (.intro ?_ first.child)
        have same : StorableHere { node with value := some (value ++ text.value.getD "") } :=
          first.here.of_same rfl rfl rfl rfl
        split
        · next before after placed ends =>
          have start := first.here.formed.position before placed
          have finish := own.here.formed.position after ends
          exact same.withPosition ⟨start.start, finish.finish⟩
        · exact same
      · exact List.forall_mem_cons.mpr ⟨first, List.forall_mem_singleton.mpr own⟩
    | cons second rest => exact List.forall_mem_cons.mpr ⟨first, ih others⟩

theorem storable_describeImage {node : Node} (storable : node.Storable) :
    (describeImage node).Storable := by
  have bare : StorableHere { node with children := none } :=
    storable.here.of_same rfl rfl rfl rfl
  have alt : (Json.str node.textContent).Plain := trivial
  exact (bare.withField (by decide) alt.lossless).storable rfl

namespace Stored

variable {text : String} {b : TreeBuilder} (stored : b.Stored text)

include stored

theorem addNode {node : Node} (own : node.Storable) : (b.addNode node).Stored text := by
  unfold TreeBuilder.addNode
  split
  · next top outer stands =>
    obtain ⟨first, others⟩ := List.forall_mem_cons.mp (stands ▸ stored.stack)
    exact ⟨stored.index, List.forall_mem_cons.mpr ⟨first.addChild own, others⟩, stored.roots⟩
  · exact ⟨stored.index, stored.stack,
      List.forall_mem_append.mpr ⟨stored.roots, List.forall_mem_singleton.mpr own⟩⟩

theorem closeImplicit : b.closeImplicit.Stored text := by
  unfold TreeBuilder.closeImplicit
  split
  · exact stored
  · dsimp only
    split
    · next top outer stands =>
      obtain ⟨first, others⟩ := List.forall_mem_cons.mp (stands ▸ stored.stack)
      split
      · have outside : Stored text { b with stack := outer, implicit := none } :=
          ⟨stored.index, others, stored.roots⟩
        exact outside.addNode (storable_fitToChildren first)
      · exact ⟨stored.index, stored.stack, stored.roots⟩
    · exact ⟨stored.index, stored.stack, stored.roots⟩

theorem close (kind : TagKind) : (b.close kind).Stored text := by
  unfold TreeBuilder.close
  split
  · exact stored
  · next node outer stands =>
    obtain ⟨first, others⟩ := List.forall_mem_cons.mp (stands ▸ stored.stack)
    have outside : Stored text { b with stack := outer } := ⟨stored.index, others, stored.roots⟩
    refine outside.addNode ?_
    split
    · exact storable_describeImage first
    · exact first

theorem appendValue? {content : String} {result : TreeBuilder}
    (appended : b.appendValue? content = some result) : result.Stored text := by
  unfold TreeBuilder.appendValue? at appended
  split at appended
  · next top outer stands =>
    obtain ⟨first, others⟩ := List.forall_mem_cons.mp (stands ▸ stored.stack)
    obtain ⟨value, -, rfl⟩ := Option.map_eq_some_iff.mp appended
    exact ⟨stored.index, List.forall_mem_cons.mpr
      ⟨.intro (first.here.of_same rfl rfl rfl rfl) first.child, others⟩, stored.roots⟩
  · cases appended

section Place

variable (held : Held text) {span : Span} (within : span.Within text.utf8ByteSize)

include held within

theorem place {node : Node} (own : node.Storable) : (b.place node span).Storable := by
  have formed := LineIndex.formed_position held within.start within.stop
  rw [← stored.index] at formed
  exact own.withPosition formed

theorem addLeaf {node : Node} (own : node.Storable) : (b.addLeaf node span).Stored text :=
  stored.addNode (stored.place held within own)

theorem openNode {node : Node} (own : node.Storable) : (b.openNode node span).Stored text :=
  ⟨stored.index, List.forall_mem_cons.mpr ⟨stored.place held within own, stored.stack⟩,
    stored.roots⟩

theorem openImplicit : (b.openImplicit span).Stored text := by
  have own : (Node.paragraph []).Storable :=
    (storableHere_of_fields rfl rfl rfl rfl).storable rfl
  have opened := stored.openNode held within own
  unfold TreeBuilder.openImplicit
  split
  · exact ⟨opened.index, opened.stack, opened.roots⟩
  · exact stored

theorem addText (content : String) : (b.addText content span).Stored text := by
  have own : (Node.text content).Storable := (storableHere_of_fields rfl rfl rfl rfl).storable rfl
  have placed := stored.place held within own
  unfold TreeBuilder.addText
  split
  · exact stored
  · split
    · next appended => exact stored.appendValue? appended
    · dsimp only
      split
      · next top outer stands =>
        obtain ⟨first, others⟩ := List.forall_mem_cons.mp (stands ▸ stored.stack)
        exact ⟨stored.index, List.forall_mem_cons.mpr
          ⟨first.withChildren (storable_joinText placed first.child), others⟩, stored.roots⟩
      · exact ⟨stored.index, stored.stack, storable_joinText placed stored.roots⟩

theorem addHtml (content : String) : (b.addHtml content span).Stored text := by
  unfold TreeBuilder.addHtml
  cases appended : b.appendValue? content with
  | none =>
    exact stored.addLeaf held within ((storableHere_of_fields rfl rfl rfl rfl).storable rfl)
  | some result => exact stored.appendValue? appended

theorem apply {event : Event} (small : event.Small) : (b.apply event span).Stored text := by
  have leaf : ∀ {node : Node}, Kind.ofTag node.kind.tag = node.kind → node.position = none →
      node.data = none → node.rest = [] → node.childList = [] → (b.addLeaf node span).Stored text :=
    fun kind position data rest none => stored.addLeaf held within
      ((storableHere_of_fields kind position data rest).storable none)
  cases event with
  | start tag => exact stored.openNode held within (Tag.storable_node small)
  | stop kind => exact stored.close kind
  | text content => exact stored.addText held within content
  | html content => exact stored.addHtml held within content
  | inlineHtml content => exact stored.addHtml held within content
  | softBreak => exact stored.addText held within "\n"
  | task checked =>
    have marks : ∀ node : Node, node.Storable →
        (node.withField "checked" (.bool checked)).Storable :=
      fun _ own => own.withField (by decide) (Json.Plain.lossless trivial)
    exact ⟨stored.index, forall_mem_checkItem marks stored.stack, stored.roots⟩
  | footnoteReference label =>
    have plain : ({ Node.ofKind .footnoteReference with label := some label }).StorableHere :=
      storableHere_of_fields rfl rfl rfl rfl
    exact stored.addLeaf held within ((Tag.storableHere_withIdentifier plain label).storable rfl)
  | _ => exact leaf rfl rfl rfl rfl rfl

theorem step {event : Event} (small : event.Small) : (b.step event span).Stored text := by
  unfold TreeBuilder.step
  dsimp only
  split
  · exact (stored.openImplicit held within).apply held within small
  · split
    · exact stored.closeImplicit.apply held within small
    · exact stored.apply held within small

end Place

theorem run (held : Held text) {events : List (Event × Span)}
    (fitting : ∀ event ∈ events, Fitting text.utf8ByteSize event) : (b.run events).Stored text := by
  induction events generalizing b with
  | nil => exact stored
  | cons event events ih =>
    obtain ⟨first, others⟩ := List.forall_mem_cons.mp fitting
    exact ih (stored.step held first.within first.small) others

end Stored

end TreeBuilder

theorem storable_readTree (extensions : Extensions) {text : String} (held : Held text) :
    (readTree extensions text).Storable := by
  have empty : TreeBuilder.Stored text ⟨LineIndex.ofText text, [], [], none⟩ :=
    ⟨rfl, by simp, by simp⟩
  have stored := empty.run held (fitting_readEvents extensions text)
  have own : (Node.root []).Storable := (storableHere_of_fields rfl rfl rfl rfl).storable rfl
  exact stored.place held ⟨Nat.zero_le _, Nat.le_refl _⟩ (own.withChildren stored.roots)

end PageTree.Markdown
