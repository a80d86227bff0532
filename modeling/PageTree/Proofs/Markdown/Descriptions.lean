import PageTree.Proofs.Markdown.Simulation
import PageTree.Proofs.Tree.Everywhere

/-!
The descriptions of images. An image is described by the text that the nodes in it hold when it ends. An
image within an image has given its own text away by then, so that the outer description is the text
outside of such images.
-/

namespace PageTree

namespace Node

/-- The description of an image. -/
def alt (node : Node) : Option Json := node.rest.lookup "alt"

theorem rest_bare (node : Node) : node.bare.rest = node.rest := by rw [bare_eq]

theorem ofKindIn_bare (kind : Kind) (node : Node) :
    ofKindIn kind node.bare = (ofKindIn kind node).map bare := by
  induction node using child_induction with
  | step node ih =>
    rw [ofKindIn_eq, ofKindIn_eq kind node, kind_bare, childList_bare, List.map_append,
      List.flatMap_map, List.map_flatMap, List.flatMap_congr ih]
    split <;> rfl

theorem ofKindInList_bare (kind : Kind) (nodes : List Node) :
    ofKindInList kind (nodes.map bare) = (ofKindInList kind nodes).map bare := by
  rw [ofKindInList_eq, ofKindInList_eq, List.flatMap_map, List.map_flatMap]
  exact List.flatMap_congr fun node _ => ofKindIn_bare kind node

theorem ofKindIn_of_kind_ne {kind : Kind} {node : Node} (other : node.kind ≠ kind) :
    ofKindIn kind node = ofKindInList kind node.childList := by
  rw [ofKindIn_eq, if_neg other, ofKindInList_eq]
  rfl

theorem ofKindInList_append (kind : Kind) (nodes others : List Node) :
    ofKindInList kind (nodes ++ others) = ofKindInList kind nodes ++ ofKindInList kind others := by
  rw [ofKindInList_eq, ofKindInList_eq, ofKindInList_eq, List.flatMap_append]

theorem textOfList_append (nodes others : List Node) :
    textOfList (nodes ++ others) = textOfList nodes ++ textOfList others := by
  induction nodes with
  | nil => exact String.empty_append.symm
  | cons node nodes ih => rw [List.cons_append, textOfList, textOfList, ih, String.append_assoc]

end Node

namespace Markdown

open EventTree (eventsOf partsOf tasksOf rawText elementNode Proper)
open PageTree.Markdown.Part (joinTexts textNodes paragraphOf itemNodes)
open Node (ofKindIn ofKindInList textOfList)

namespace Part

def words : Part → String
  | text content => content
  | inline node | block node => node.textContent
  | nothing => ""

def ofKind (kind : Kind) : Part → List Node
  | inline node | block node => ofKindIn kind node
  | text _ | nothing => []

theorem textOfList_textNodes (content : String) : textOfList (textNodes content) = content := by
  unfold textNodes
  split
  · next empty => exact (String.isEmpty_iff.mp empty).symm
  · rw [textOfList, textOfList, String.append_empty]
    exact String.append_empty

theorem textOfList_joinTexts (before : String) (parts : List Part) :
    textOfList (joinTexts before parts) = before ++ String.join (parts.map words) := by
  induction parts generalizing before with
  | nil => exact (textOfList_textNodes before).trans String.append_empty.symm
  | cons part rest ih =>
    have node : ∀ node : Node, textOfList (textNodes before ++ node :: joinTexts "" rest) =
        before ++ (node.textContent ++ String.join (rest.map words)) := by
      intro node
      rw [Node.textOfList_append, textOfList_textNodes, textOfList, ih, String.empty_append]
    rw [List.map_cons, String.join_cons]
    cases part with
    | text content => rw [joinTexts, ih, String.append_assoc, words]
    | inline inner => exact node inner
    | block inner => exact node inner
    | nothing => rw [joinTexts, ih, words, String.empty_append]

variable {kind : Kind}

theorem ofKindInList_textNodes (other : Kind.text ≠ kind) (content : String) :
    ofKindInList kind (textNodes content) = [] := by
  unfold textNodes
  split
  · rfl
  · have leaf : ofKindIn kind (Node.text content) = [] := Node.ofKindIn_of_kind_ne other
    rw [ofKindInList, ofKindInList, leaf]
    rfl

theorem ofKindInList_joinTexts (other : Kind.text ≠ kind) (before : String) (parts : List Part) :
    ofKindInList kind (joinTexts before parts) = parts.flatMap (ofKind kind) := by
  induction parts generalizing before with
  | nil => exact ofKindInList_textNodes other before
  | cons part rest ih =>
    rw [List.flatMap_cons]
    cases part with
    | text content => exact ih _
    | nothing => exact ih _
    | inline inner | block inner =>
      rw [joinTexts, Node.ofKindInList_append, ofKindInList_textNodes other, ofKindInList, ih]
      rfl

theorem ofKindInList_paragraphOf (text : Kind.text ≠ kind) (paragraph : Kind.paragraph ≠ kind)
    (run : Option (List Part)) :
    ofKindInList kind (paragraphOf run) = (run.getD []).flatMap (ofKind kind) := by
  cases run with
  | none => rfl
  | some run =>
    have inside : ofKindIn kind (Node.paragraph (joinTexts "" run)) =
        ofKindInList kind (joinTexts "" run) := Node.ofKindIn_of_kind_ne paragraph
    rw [paragraphOf, ofKindInList, ofKindInList, inside, ofKindInList_joinTexts text, List.append_nil,
      Option.getD_some]

theorem ofKindInList_itemNodes (text : Kind.text ≠ kind) (paragraph : Kind.paragraph ≠ kind)
    (run : Option (List Part)) (parts : List Part) : ofKindInList kind (itemNodes run parts) =
      (run.getD []).flatMap (ofKind kind) ++ parts.flatMap (ofKind kind) := by
  induction parts generalizing run with
  | nil => rw [itemNodes, ofKindInList_paragraphOf text paragraph, List.flatMap_nil, List.append_nil]
  | cons part rest ih =>
    rw [List.flatMap_cons]
    cases part with
    | nothing => exact ih run
    | block inner =>
      rw [itemNodes, Node.ofKindInList_append, ofKindInList_paragraphOf text paragraph, ofKindInList, ih]
      rfl
    | text content =>
      rw [itemNodes, ih, Option.getD_some, List.flatMap_append, List.append_assoc]
      rfl
    | inline inner =>
      rw [itemNodes, ih, Option.getD_some, List.flatMap_append, List.append_assoc]
      simp

end Part

namespace EventTree

mutual

def words : EventTree → String
  | single event => event.said
  | element tag inside => if tag.kind = .image then "" else wordsOf inside

def wordsOf : List EventTree → String
  | [] => ""
  | tree :: trees => tree.words ++ wordsOf trees

end

mutual

/-- What the images of a tree hold, in order, for those that are in no other image. -/
def images : EventTree → List (List EventTree)
  | single _ => []
  | element tag inside => if tag.kind = .image then [inside] else imagesOf inside

def imagesOf : List EventTree → List (List EventTree)
  | [] => []
  | tree :: trees => tree.images ++ imagesOf trees

end

/-- The words of all events of a tree. -/
def said (tree : EventTree) : String := String.join (tree.events.map Event.said)

def saidOf (trees : List EventTree) : String := String.join ((eventsOf trees).map Event.said)

theorem saidOf_cons (tree : EventTree) (trees : List EventTree) :
    saidOf (tree :: trees) = tree.said ++ saidOf trees := by
  rw [saidOf, eventsOf, List.map_append, String.join_append]
  rfl

theorem said_single (event : Event) : (single event).said = event.said := by
  rw [said, events, List.map_singleton, String.join_cons]
  exact String.append_empty

theorem said_element (tag : Tag) (inside : List EventTree) :
    (element tag inside).said = saidOf inside := by
  rw [said, events, List.map_cons, List.map_append, String.join_cons, String.join_append]
  exact String.empty_append.trans String.append_empty

mutual

theorem length_said : (tree : EventTree) → tree.said.length =
    tree.words.length + (String.join (tree.images.map saidOf)).length
  | single event => by
    rw [said_single, words, images]
    rfl
  | element tag inside => by
    rw [said_element, words, images]
    split
    · rw [List.map_singleton, String.join_cons, String.length_append]
      exact (Nat.zero_add _).symm
    · exact length_saidOf inside

theorem length_saidOf : (trees : List EventTree) → (saidOf trees).length =
    (wordsOf trees).length + (String.join ((imagesOf trees).map saidOf)).length
  | [] => rfl
  | tree :: trees => by
    rw [saidOf_cons, wordsOf, imagesOf, List.map_append, String.join_append, String.length_append,
      String.length_append, String.length_append, length_said tree, length_saidOf trees]
    omega

end

mutual

theorem words_eq_said : (tree : EventTree) → (∀ inside ∈ tree.images, saidOf inside = "") →
    tree.words = tree.said
  | single event, _ => by rw [said_single, words]
  | element tag inside, silent => by
    rw [images] at silent
    rw [said_element, words]
    split
    · next image =>
      rw [if_pos image] at silent
      exact (silent inside (List.mem_singleton.mpr rfl)).symm
    · next other =>
      rw [if_neg other] at silent
      exact wordsOf_eq_saidOf inside silent

theorem wordsOf_eq_saidOf : (trees : List EventTree) →
    (∀ inside ∈ imagesOf trees, saidOf inside = "") → wordsOf trees = saidOf trees
  | [], _ => rfl
  | tree :: trees, silent => by
    rw [imagesOf, List.forall_mem_append] at silent
    rw [saidOf_cons, wordsOf, words_eq_said tree silent.1, wordsOf_eq_saidOf trees silent.2]

end

/-- All words are outside of images just when the images hold no words. -/
theorem wordsOf_eq_saidOf_iff (trees : List EventTree) :
    wordsOf trees = saidOf trees ↔ ∀ inside ∈ imagesOf trees, saidOf inside = "" := by
  refine ⟨fun same => ?_, wordsOf_eq_saidOf trees⟩
  have length := length_saidOf trees
  rw [same] at length
  have none : String.join ((imagesOf trees).map saidOf) = "" :=
    String.length_eq_zero_iff.mp (by omega)
  have each := congrArg String.toList none
  rw [String.toList_join, String.toList_empty, List.flatMap_eq_nil_iff] at each
  exact fun inside member => String.toList_eq_nil_iff.mp (each _ (List.mem_map_of_mem member))

theorem wordsOf_eq_join (trees : List EventTree) : wordsOf trees = String.join (trees.map words) := by
  induction trees with
  | nil => rfl
  | cons tree trees ih => rw [wordsOf, ih, List.map_cons, String.join_cons]

theorem imagesOf_eq_flatMap (trees : List EventTree) : imagesOf trees = trees.flatMap images := by
  induction trees with
  | nil => rfl
  | cons tree trees ih => rw [imagesOf, ih, List.flatMap_cons]

theorem partsOf_eq_map (trees : List EventTree) : partsOf trees = trees.map part := by
  induction trees with
  | nil => rfl
  | cons tree trees ih => rw [partsOf, ih, List.map_cons]

theorem plain_of_isInline {tag : Tag} (inline : tag.isInline) :
    tag.isLiteral = false ∧ tag.kind ≠ .item := by
  unfold Tag.isInline at inline
  unfold Tag.isLiteral
  generalize tag.kind = kind at inline
  cases kind <;> simp_all

theorem textOfList_partsOf {trees : List EventTree}
    (same : ∀ tree ∈ trees, tree.part.words = tree.words) :
    textOfList (joinTexts "" (partsOf trees)) = wordsOf trees := by
  have each : (partsOf trees).map Part.words = trees.map words := by
    rw [partsOf_eq_map, List.map_map]
    exact List.map_congr_left same
  rw [Part.textOfList_joinTexts, each, ← wordsOf_eq_join, String.empty_append]

theorem textContent_describeImage (node : Node) :
    (TreeBuilder.describeImage node).textContent = node.value.getD "" :=
  (Node.textContent_eq _).trans String.append_empty

theorem words_part {tree : EventTree} (proper : tree.Proper)
    (within : tree.first.beginsBlock = false) : tree.part.words = tree.words := by
  induction proper with
  | @single event single =>
    cases event with
    | start | stop => exact absurd single Bool.false_ne_true
    | html | rule => exact absurd within Bool.true_eq_false.mp
    | _ => first | rfl | exact String.append_empty
  | @element tag inside inline literal each ih =>
    have isInline : tag.isInline := by simpa [first, Event.beginsBlock] using within
    obtain ⟨plain, other⟩ := plain_of_isInline isInline
    obtain ⟨-, -, -, -, value⟩ := tag.fields_node
    rw [plain] at value
    rw [part, if_pos isInline, Part.words, words, TreeBuilder.elementNode_eq plain other]
    split
    · rw [textContent_describeImage]
      exact congrArg (Option.getD · "") value
    · rw [Node.textContent_eq, value]
      exact String.empty_append.trans
        (textOfList_partsOf fun tree member => ih tree member (inline isInline tree member))

theorem kind_node_image (tag : Tag) : tag.node.kind = .image ↔ tag.kind = .image := by
  have title : ∀ (node : Node) (title : String), (Tag.withTitle node title).kind = node.kind := by
    intro node title
    unfold Tag.withTitle
    split <;> rfl
  cases tag with
  | heading level id classes =>
    simp only [Tag.node, Tag.headingNode]
    cases id <;> (split <;> exact iff_of_false Kind.noConfusion TagKind.noConfusion)
  | list start => cases start <;> exact iff_of_false Kind.noConfusion TagKind.noConfusion
  | link form target title' =>
    simp only [Tag.node, Tag.linkNode]
    split
    · exact iff_of_false Kind.noConfusion TagKind.noConfusion
    · rw [title]
      exact iff_of_false Kind.noConfusion TagKind.noConfusion
  | image form target title' =>
    rw [Tag.node, title]
    exact iff_of_true rfl rfl
  | _ => exact iff_of_false Kind.noConfusion TagKind.noConfusion

theorem imagesOf_eq_nil {trees : List EventTree} (raw : ∀ tree ∈ trees, tree.first.isRaw) :
    imagesOf trees = [] := by
  rw [imagesOf_eq_flatMap, List.flatMap_eq_nil_iff]
  intro tree member
  cases tree with
  | single event => rfl
  | element tag inside => exact absurd (raw _ member) Bool.false_ne_true

theorem elementNode_image {tag : Tag} (image : tag.kind = .image) (inside : List EventTree)
    (parts : List Part) : elementNode tag inside parts =
      ({ tag.node with children := none }).withField "alt"
        (.str (textOfList (joinTexts "" parts))) := by
  rw [elementNode, image]

theorem alt_image {tag : Tag} (image : tag.kind = .image) (inside : List EventTree)
    (parts : List Part) :
    (elementNode tag inside parts).alt = some (.str (textOfList (joinTexts "" parts))) := by
  rw [elementNode_image image]
  exact Json.Fields.lookup_put_self _ _ _

theorem ofKindIn_image {tag : Tag} (image : tag.kind = .image) (inside : List EventTree) :
    let node := elementNode tag inside (partsOf inside)
    ofKindIn .image node = [node] := by
  intro node
  have kind : node.kind = .image :=
    (kind_elementNode tag inside _).trans ((kind_node_image tag).mpr image)
  have leaf : node.childList = [] := congrArg Node.childList (elementNode_image image inside _)
  rw [Node.ofKindIn_eq, if_pos kind, leaf]
  rfl

theorem childList_checked (boxes : List Bool) (item : Node) :
    (checked boxes item).childList = item.childList := by
  unfold checked
  split <;> rfl

theorem ofKindIn_elementNode {tag : Tag} (image : tag.kind ≠ .image) (inside : List EventTree) :
    ofKindIn .image (elementNode tag inside (partsOf inside)) =
      if tag.isLiteral then [] else (partsOf inside).flatMap (Part.ofKind .image) := by
  have kind : (elementNode tag inside (partsOf inside)).kind ≠ .image := by
    rw [kind_elementNode]
    exact fun same => image ((kind_node_image tag).mp same)
  rw [Node.ofKindIn_of_kind_ne kind]
  cases plain : tag.isLiteral with
  | true =>
    obtain ⟨-, -, -, children, -⟩ := tag.fields_node
    rw [plain] at children
    have leaf : (elementNode tag inside (partsOf inside)).childList = [] := by
      rw [TreeBuilder.elementNode_literal plain]
      exact congrArg (Option.getD · []) children
    rw [leaf]
    rfl
  | false =>
    by_cases isItem : tag.kind = .item
    · have item : elementNode tag inside (partsOf inside) = checked (tasksOf inside)
          { tag.node with children := some (itemNodes none (partsOf inside)) } := by
        rw [elementNode, isItem]
      rw [item, childList_checked]
      exact Part.ofKindInList_itemNodes (by decide) (by decide) none (partsOf inside)
    · rw [TreeBuilder.elementNode_eq plain isItem, if_neg image]
      exact Part.ofKindInList_joinTexts (by decide) "" (partsOf inside)

/-- The images of a part are those of the tree, each with the words in it outside of other images. -/
theorem alt_part {tree : EventTree} (proper : tree.Proper) :
    (tree.part.ofKind .image).map Node.alt =
      tree.images.map fun inside => some (.str (wordsOf inside)) := by
  induction proper with
  | @single event single =>
    cases event with
    | start | stop => exact absurd single Bool.false_ne_true
    | _ => rfl
  | @element tag inside inline literal each ih =>
    have held : ((partsOf inside).flatMap (Part.ofKind .image)).map Node.alt =
        (imagesOf inside).map fun inside => some (.str (wordsOf inside)) := by
      rw [partsOf_eq_map, imagesOf_eq_flatMap, List.flatMap_map, List.map_flatMap, List.map_flatMap]
      exact List.flatMap_congr ih
    have own : (EventTree.element tag inside).part.ofKind .image =
        ofKindIn .image (elementNode tag inside (partsOf inside)) := by
      rw [part]
      split <;> rfl
    rw [own, images]
    by_cases image : tag.kind = .image
    · have isInline : tag.isInline := by rw [Tag.isInline, image]
      have words := textOfList_partsOf fun tree member =>
        words_part (each tree member) (inline isInline tree member)
      rw [ofKindIn_image image inside, if_pos image, List.map_singleton, List.map_singleton,
        alt_image image, words]
    · rw [ofKindIn_elementNode image inside, if_neg image]
      split
      · next raw => rw [imagesOf_eq_nil (literal raw)]; rfl
      · exact held

end EventTree

open EventTree (wordsOf imagesOf saidOf)

theorem alt_bare (node : Node) : node.bare.alt = node.alt := by rw [Node.alt, Node.rest_bare, Node.alt]

theorem bare_childList_treeOfEvents (text : String) {events : List (Event × Span)}
    {trees : List EventTree} (spells : eventsOf trees = events.map Prod.fst)
    (proper : ∀ tree ∈ trees, tree.Proper) :
    (treeOfEvents text events).childList.map Node.bare = EventTree.nodesOf trees := by
  let fresh := TreeBuilder.mk (LineIndex.ofText text) [] [] none
  have run := TreeBuilder.run_trees (fun tree member => TreeBuilder.translates (proper tree member))
    fresh spells.symm fun tree _ => TreeBuilder.ready_outside rfl rfl tree.first
  have apart : ∀ last ∈ ([] : List Node).getLast?, last.kind ≠ .text := by simp
  have added : fresh.bare.addAll (partsOf trees) =
      { fresh.bare with roots := EventTree.nodesOf trees } :=
    TreeBuilder.addAll_withContent fresh.bare apart (EventTree.solid_partsOf trees) ""
  rw [added, TreeBuilder.mark_of_stack_nil rfl] at run
  exact congrArg TreeBuilder.roots run

theorem map_alt_treeOfEvents (text : String) {events : List (Event × Span)} {trees : List EventTree}
    (spells : eventsOf trees = events.map Prod.fst) (proper : ∀ tree ∈ trees, tree.Proper) :
    ((treeOfEvents text events).ofKindIn .image).map Node.alt =
      (imagesOf trees).map fun inside => some (.str (wordsOf inside)) := by
  have other : (treeOfEvents text events).kind ≠ .image := Kind.noConfusion
  calc ((treeOfEvents text events).ofKindIn .image).map Node.alt
      = (ofKindInList .image (treeOfEvents text events).childList).map Node.alt := by
        rw [Node.ofKindIn_of_kind_ne other]
    _ = (ofKindInList .image (EventTree.nodesOf trees)).map Node.alt := by
        rw [← bare_childList_treeOfEvents text spells proper, Node.ofKindInList_bare, List.map_map]
        exact List.map_congr_left fun node _ => (alt_bare node).symm
    _ = ((partsOf trees).flatMap (Part.ofKind .image)).map Node.alt := by
        rw [EventTree.nodesOf, Part.ofKindInList_joinTexts (by decide)]
    _ = (imagesOf trees).map fun inside => some (.str (wordsOf inside)) := by
        rw [EventTree.partsOf_eq_map, EventTree.imagesOf_eq_flatMap, List.flatMap_map,
          List.map_flatMap, List.map_flatMap]
        exact List.flatMap_congr fun tree member => EventTree.alt_part (proper tree member)

/-- The images of a document are those of its events that are in no other image. The description of one
is the text in it outside of further images. This is all the text in it just when further images hold
no text. -/
theorem treeOfEvents_images (text : String) {events : List (Event × Span)}
    (nested : WellNested [] (events.map Prod.fst)) :
    (∃ trees, eventsOf trees = events.map Prod.fst ∧ ∀ tree ∈ trees, tree.Proper) ∧
      ∀ trees, eventsOf trees = events.map Prod.fst → (∀ tree ∈ trees, tree.Proper) →
        ((treeOfEvents text events).ofKindIn .image).map Node.alt =
            (imagesOf trees).map (fun inside => some (.str (wordsOf inside))) ∧
          ∀ inside ∈ imagesOf trees, wordsOf inside = saidOf inside ↔
            ∀ inner ∈ imagesOf inside, saidOf inner = "" := by
  obtain ⟨trees, rest, spells, each, closes⟩ := nested.exists_trees
  cases closes
  rw [List.append_nil] at spells
  refine ⟨⟨trees, spells.symm, fun tree member => (each tree member).1⟩, fun trees spells proper => ?_⟩
  exact ⟨map_alt_treeOfEvents text spells proper, fun inside _ => EventTree.wordsOf_eq_saidOf_iff inside⟩

/-- Emphasis, code and a line break in a description. -/
theorem treeOfEvents_images_lines :
    let text := "![a *b*\n`c`](d)"
    let events := [(.start .paragraph, ⟨0, 15⟩), (.start (.image .inline "d" ""), ⟨0, 15⟩),
      (.text "a ", ⟨2, 4⟩), (.start .emphasis, ⟨4, 7⟩), (.text "b", ⟨5, 6⟩),
      (.stop .emphasis, ⟨4, 7⟩), (.softBreak, ⟨7, 8⟩), (.code "c", ⟨8, 11⟩),
      (.stop .image, ⟨0, 15⟩), (.stop .paragraph, ⟨0, 15⟩)]
    WellNested [] (events.map Prod.fst) ∧
      ((treeOfEvents text events).ofKindIn .image).map Node.alt = [some (.str "a b\nc")] := by
  intro text events
  have nested : WellNested [] (events.map Prod.fst) := by decide
  let inside : List EventTree := [.single (.text "a "), .element .emphasis [.single (.text "b")],
    .single .softBreak, .single (.code "c")]
  let trees : List EventTree := [.element .paragraph [.element (.image .inline "d" "") inside]]
  have proper : ∀ tree ∈ trees, tree.Proper := by
    simp [trees, inside, Event.isSingle, EventTree.first, Event.beginsBlock, Tag.isInline,
      Tag.isLiteral, Tag.kind]
  have images := (treeOfEvents_images text nested).2 trees rfl proper
  exact ⟨nested, images.1⟩

/-- The words of an image within an image are in no description. -/
theorem treeOfEvents_images_nested :
    let text := "![a ![b](c) d](e)"
    let inside := [(.text "a ", ⟨2, 4⟩), (.start (.image .inline "c" ""), ⟨4, 11⟩),
      (.text "b", ⟨6, 7⟩), (.stop .image, ⟨4, 11⟩), (.text " d", ⟨11, 13⟩)]
    let events := (.start .paragraph, ⟨0, 17⟩) :: (.start (.image .inline "e" ""), ⟨0, 17⟩) ::
      (inside ++ [(.stop .image, ⟨0, 17⟩), (.stop .paragraph, ⟨0, 17⟩)])
    WellNested [] (events.map Prod.fst) ∧
      ((treeOfEvents text events).ofKindIn .image).map Node.alt = [some (.str "a  d")] ∧
      String.join (inside.map fun event => event.1.said) = "a b d" := by
  intro text inside events
  let outer : List EventTree := [.single (.text "a "),
    .element (.image .inline "c" "") [.single (.text "b")], .single (.text " d")]
  let trees : List EventTree := [.element .paragraph [.element (.image .inline "e" "") outer]]
  have proper : ∀ tree ∈ trees, tree.Proper := by
    simp [trees, outer, Event.isSingle, EventTree.first, Event.beginsBlock, Tag.isInline,
      Tag.isLiteral, Tag.kind]
  exact ⟨by decide, map_alt_treeOfEvents text rfl proper, by decide⟩

end Markdown

end PageTree
