import PageTree.Markdown.TreeBuilder
import PageTree.Proofs.Markdown.EventTree

/-!
The document that event trees describe, without positions. Every event tree has a part in what it
stands in: a text, an inline node, a block or nothing. Texts that follow each other make one node.
An item has its blocks as children, and one paragraph for each run of texts and inline nodes between
them.
-/

namespace PageTree.Markdown

/-- What an event tree is in the element that holds it. -/
inductive Part where
  | text (content : String)
  | inline (node : Node)
  | block (node : Node)
  | nothing

namespace Part

def textNodes (content : String) : List Node :=
  if content.isEmpty then [] else [Node.text content]

def joinTexts (before : String) : List Part → List Node
  | [] => textNodes before
  | text content :: rest => joinTexts (before ++ content) rest
  | inline node :: rest | block node :: rest => textNodes before ++ node :: joinTexts "" rest
  | nothing :: rest => joinTexts before rest

/-- The paragraph of a run of texts and inline nodes, if there is a run. -/
def paragraphOf : Option (List Part) → List Node
  | none => []
  | some run => [Node.paragraph (joinTexts "" run)]

/-- The children of an item from some parts after a run. -/
def itemNodes (run : Option (List Part)) : List Part → List Node
  | [] => paragraphOf run
  | text content :: rest => itemNodes (some (run.getD [] ++ [text content])) rest
  | inline node :: rest => itemNodes (some (run.getD [] ++ [inline node])) rest
  | block node :: rest => paragraphOf run ++ node :: itemNodes none rest
  | nothing :: rest => itemNodes run rest

def ofEvent : Event → Part
  | .text content => text content
  | .softBreak => text "\n"
  | .code content => inline (Node.literal .inlineCode content)
  | .inlineHtml content => inline (Node.html content)
  | .hardBreak => inline (Node.ofKind .lineBreak)
  | .footnoteReference label =>
    inline (({ Node.ofKind .footnoteReference with label := some label }).withField "identifier"
      (.str (Unicode.toLower label)))
  | .inlineMath content => inline (Node.literal (.other "inlineMath") content)
  | .displayMath content => inline (Node.literal (.other "math") content)
  | .html content => block (Node.html content)
  | .rule => block (Node.ofKind .thematicBreak)
  | _ => nothing

end Part

/-- Marks an item as its last task box says. -/
def checked (tasks : List Bool) (item : Node) : Node :=
  match tasks.getLast? with
  | some state => item.withField "checked" (.bool state)
  | none => item

namespace EventTree

def rawText : List EventTree → String
  | [] => ""
  | single (.text content) :: rest | single (.html content) :: rest => content ++ rawText rest
  | _ :: rest => rawText rest

mutual

/-- The task boxes outside of items. -/
def tasks : EventTree → List Bool
  | single (.task state) => [state]
  | single _ => []
  | element tag inside => if tag.kind = .item then [] else tasksOf inside

def tasksOf : List EventTree → List Bool
  | [] => []
  | tree :: trees => tree.tasks ++ tasksOf trees

end

def elementNode (tag : Tag) (inside : List EventTree) (parts : List Part) : Node :=
  match tag.kind with
  | .code | .html | .metadata => { tag.node with value := some (rawText inside) }
  | .item => checked (tasksOf inside) { tag.node with children := some (Part.itemNodes none parts) }
  | .image => ({ tag.node with children := none }).withField "alt"
      (.str (Node.textOfList (Part.joinTexts "" parts)))
  | _ => { tag.node with children := some (Part.joinTexts "" parts) }

mutual

def part : EventTree → Part
  | single event => .ofEvent event
  | element tag inside =>
    let node := elementNode tag inside (partsOf inside)
    if tag.isInline then .inline node else .block node

def partsOf : List EventTree → List Part
  | [] => []
  | tree :: trees => tree.part :: partsOf trees

end

def nodesOf (trees : List EventTree) : List Node := Part.joinTexts "" (partsOf trees)

end EventTree

end PageTree.Markdown
