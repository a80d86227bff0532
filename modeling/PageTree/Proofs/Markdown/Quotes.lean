import PageTree.Markdown.Reading
import PageTree.Proofs.Markdown.Simulation
import PageTree.Proofs.Tree.RoundTrip

/-!
Quotes that hold nothing but a quote. The document of such quotes is as deep as its text says, so that
the depth of its JSON text is known without reading that text.
-/

namespace PageTree.Markdown

open EventReader (readBlocks readInlines)

def quoteMarks (n : Nat) : String := String.ofList (List.replicate n '>')

def quotesOnly : Nat → List Block → Bool
  | 0, blocks => blocks.isEmpty
  | n + 1, [⟨.quote, _, _, [], blocks⟩] => quotesOnly n blocks
  | _, _ => false

theorem quotesOnly_succ {n : Nat} {blocks : List Block} (only : quotesOnly (n + 1) blocks) :
    ∃ start stop inner, blocks = [⟨.quote, start, stop, [], inner⟩] ∧ quotesOnly n inner := by
  unfold quotesOnly at only
  split at only
  · next same => cases same
  · next same => exact ⟨_, _, _, rfl, by cases same; exact only⟩
  · cases only

def quoteEvents (n : Nat) : List Event :=
  List.replicate n (.start .quote) ++ List.replicate n (.stop .quote)

theorem quoteEvents_succ (n : Nat) :
    quoteEvents (n + 1) = .start .quote :: (quoteEvents n ++ [.stop .quote]) := by
  rw [quoteEvents, List.replicate_succ, List.replicate_succ', quoteEvents]
  simp

theorem readBlocks_quotesOnly {n : Nat} {blocks : List Block} (only : quotesOnly n blocks)
    (r : EventReader) (spine : List Container) (inTable : Bool) (events : EventReader.Events) :
    (r.readBlocks spine inTable events blocks).toList.map Prod.fst =
      events.toList.map Prod.fst ++ quoteEvents n := by
  induction n generalizing blocks spine inTable events with
  | zero =>
    obtain rfl : blocks = [] := List.isEmpty_iff.mp only
    rw [readBlocks, quoteEvents]
    simp
  | succ n ih =>
    obtain ⟨start, stop, inner, rfl, below⟩ := quotesOnly_succ only
    have within := ih below (spine ++ [BlockKind.quote.container])
      (inTable || EventReader.isTable .quote)
      (events.push (.start .quote, r.span start stop))
    rw [readBlocks, readBlocks, quoteEvents_succ]
    simp [EventReader.tag?, EventReader.holdsInlines, readInlines, Tag.kind] at within ⊢
    rw [within]
    simp

/-- A node that has a place and children, with as many nodes below it as the number says, each one the
only child of the one above. -/
inductive Shell : Nat → Node → Prop
  | empty {kind : Kind} {position : Position} :
    Shell 0 { kind, children := some [], position := some position }
  | around {n : Nat} {kind : Kind} {position : Position} {child : Node} (inner : Shell n child) :
    Shell (n + 1) { kind, children := some [child], position := some position }

theorem Shell.depth {n : Nat} {node : Node} (shell : Shell n node) :
    node.toJson.depth = 2 * n + 3 := by
  have whole : ∀ (kind : Kind) (nodes : List Node) (position : Position),
      Node.toJson { kind, children := some nodes, position := some position } =
        .obj [("type", .str kind.tag), ("children", .arr (Node.listToJson nodes)),
          ("position", position.toJson)] := by
    intro kind nodes position
    rfl
  induction shell with
  | empty =>
    rw [whole]
    simp [Json.depth, Json.depthOfFields, Json.depthOfItems, Position.depth_toJson, Node.listToJson]
  | @around n kind position child inner ih =>
    rw [whole]
    simp [Json.depth, Json.depthOfFields, Json.depthOfItems, Position.depth_toJson, Node.listToJson,
      ih]
    omega

namespace TreeBuilder

theorem step_quote {b : TreeBuilder} (closed : b.implicit = none) (span : Span) :
    b.step (.start .quote) span = b.push (b.place (Node.parent .blockquote []) span) := by
  simp only [step, Event.isInline, Tag.isInline, Tag.kind, Event.isBlock,
    closeImplicit_of_none closed]
  rfl

theorem run_quoteEvents {n : Nat} (b : TreeBuilder) (closed : b.implicit = none)
    {events : List (Event × Span)} (spells : events.map Prod.fst = quoteEvents (n + 1)) :
    ∃ node, Shell n node ∧ b.run events = b.addNode node := by
  induction n generalizing b events with
  | zero =>
    obtain ⟨span, rest, rfl, last⟩ := exists_of_cons (spells.trans (quoteEvents_succ 0))
    obtain ⟨stop, none, rfl, nothing⟩ := exists_of_cons last
    obtain rfl : none = [] := List.map_eq_nil_iff.mp nothing
    refine ⟨b.place (Node.parent .blockquote []) span, .empty, ?_⟩
    rw [run_cons, step_quote closed, run_cons, step_stop _ (by decide), close_push]
    rfl
  | succ n ih =>
    obtain ⟨span, rest, rfl, content⟩ := exists_of_cons (spells.trans (quoteEvents_succ (n + 1)))
    obtain ⟨middle, ends, rfl, inner, last⟩ := List.map_eq_append_iff.mp content
    obtain ⟨stop, none, rfl, nothing⟩ := exists_of_cons last
    obtain rfl : none = [] := List.map_eq_nil_iff.mp nothing
    let quote := b.place (Node.parent .blockquote []) span
    have within : (b.push quote).implicit = Option.none := closed
    obtain ⟨node, shell, run⟩ := ih (b.push quote) within inner
    refine ⟨quote.addChild node, .around shell, ?_⟩
    rw [run_cons, step_quote closed, run_append, run, run_cons, step_stop _ (by decide)]
    rfl

end TreeBuilder

theorem depth_readTree_of_quotesOnly {extensions : Extensions} {text : String} {n : Nat}
    (only : quotesOnly n (BlockReader.read ⟨Source.ofText text, extensions⟩).blocks.toList) :
    (readTree extensions text).toJson.depth = 2 * n + 3 := by
  let fresh := TreeBuilder.mk (LineIndex.ofText text) [] [] none
  have spells : (readEvents extensions text).map Prod.fst = quoteEvents n := by
    rw [readEvents, readBlocks_quotesOnly only]
    simp
  let read := fresh.run (readEvents extensions text)
  have tree : readTree extensions text =
      read.place (Node.root read.roots) ⟨0, text.utf8ByteSize⟩ := rfl
  cases n with
  | zero =>
    have none : readEvents extensions text = [] := List.map_eq_nil_iff.mp spells
    have roots : read.roots = [] := by
      change (fresh.run (readEvents extensions text)).roots = []
      rw [none]
      rfl
    rw [tree, roots]
    exact Shell.empty.depth
  | succ n =>
    obtain ⟨node, shell, run⟩ := fresh.run_quoteEvents rfl spells
    have roots : read.roots = [node] := congrArg TreeBuilder.roots run
    rw [tree, roots]
    exact (Shell.around shell).depth

end PageTree.Markdown
