import PageTree.Markdown.Event
import PageTree.Markdown.LineIndex
import PageTree.Text.Case
import PageTree.Text.Punctuation

/-!
A document tree from events. The elements that are still open form a stack of nodes; one that closes
becomes a child of the one around it. Text that follows text joins it. An item of a tight list holds
bare text, for which a paragraph is made.
-/

namespace PageTree.Markdown

namespace Tag

/-- The text before the first space of an info string is the language, the rest is further data. -/
def infoFields (info : String) : Json.Fields :=
  if info.isEmpty then []
  else
    let (lang, rest) := info.toList.span (· ≠ ' ')
    let more := Unicode.trim (rest.drop 1)
    ("lang", Json.str (String.ofList lang))
      :: if more.isEmpty then [] else [("meta", .str (String.ofList more))]

def alignmentJson : Alignment → Json
  | .none => .null
  | .left => .str "left"
  | .center => .str "center"
  | .right => .str "right"

def referenceType? : LinkForm → Option String
  | .unknownShortcut => some "shortcut"
  | .unknownCollapsed => some "collapsed"
  | .unknownReference => some "full"
  | _ => none

def withTitle (node : Node) (title : String) : Node :=
  if title.isEmpty then node else node.withField "title" (.str title)

def withIdentifier (node : Node) (label : String) : Node :=
  node.withField "identifier" (.str (Unicode.toLower label))

def headingNode (level : Nat) (id : Option String) (classes : List String) : Node :=
  let node := Node.heading level []
  let node := match id with
    | some id => node.putProperty "id" (.str id)
    | none => node
  if classes.isEmpty then node else node.putProperty "class" (.str (" ".intercalate classes))

def listNode (start : Option Nat) : Node :=
  let node := (Node.parent .list []).withField "ordered" (.bool start.isSome)
  let node := node.withField "spread" (.bool false)
  match start with
  | some number => node.withField "start" (.int number)
  | none => node

def linkNode (form : LinkForm) (target title : String) : Node :=
  match referenceType? form with
  | some type =>
    (withIdentifier (Node.linkReference target []) target).withField "referenceType" (.str type)
  | none => withTitle (Node.link target []) title

def node : Tag → Node
  | paragraph => Node.paragraph []
  | heading level id classes => headingNode level id classes
  | quote => Node.parent .blockquote []
  | code info => { Node.literal .code "" with rest := infoFields (info.getD "") }
  | html => Node.html ""
  | list start => listNode start
  | item => (Node.parent .listItem []).withField "spread" (.bool false)
  | footnote label =>
    withIdentifier { Node.parent .footnoteDefinition [] with label := some label } label
  | table alignments =>
    (Node.parent .table []).withField "align" (.arr (alignments.map alignmentJson))
  | tableHead | tableRow => Node.parent .tableRow []
  | tableCell => Node.parent .tableCell []
  | emphasis => Node.parent .emphasis []
  | strong => Node.parent .strong []
  | strikethrough => Node.parent .delete []
  | link form target title => linkNode form target title
  | image _ target title => withTitle { Node.parent .image [] with url := some target } title
  | metadata => Node.literal (.other "yaml") ""
  | definitionList => Node.parent (.other "descriptionList") []
  | definitionTerm => Node.parent (.other "descriptionTerm") []
  | definitionDetails => Node.parent (.other "descriptionDetails") []
  | superscript => Node.parent (.other "superscript") []
  | subscript => Node.parent (.other "subscript") []

end Tag

/-- The open nodes, innermost first, the finished nodes outside all of them, and the number of open
nodes around the paragraph that was made for bare text. -/
structure TreeBuilder where
  index : LineIndex
  stack : List Node := []
  roots : List Node := []
  implicit : Option Nat := none

namespace TreeBuilder

def addNode (b : TreeBuilder) (node : Node) : TreeBuilder :=
  match b.stack with
  | top :: outer => { b with stack := top.addChild node :: outer }
  | [] => { b with roots := b.roots ++ [node] }

def place (b : TreeBuilder) (node : Node) (span : Span) : Node :=
  node.withPosition (b.index.position span.start span.stop)

def addLeaf (b : TreeBuilder) (node : Node) (span : Span) : TreeBuilder :=
  b.addNode (b.place node span)

def openNode (b : TreeBuilder) (node : Node) (span : Span) : TreeBuilder :=
  { b with stack := b.place node span :: b.stack }

def openImplicit (b : TreeBuilder) (span : Span) : TreeBuilder :=
  if b.implicit.isNone && b.stack.head?.any fun top => top.kind = .listItem then
    { b.openNode (Node.paragraph []) span with implicit := some b.stack.length }
  else b

def fitToChildren (node : Node) : Node :=
  match node.position, (node.childList.getLast?).bind Node.position with
  | some position, some last => { node with position := some { position with finish := last.finish } }
  | _, _ => node

def closeImplicit (b : TreeBuilder) : TreeBuilder :=
  match b.implicit with
  | none => b
  | some depth =>
    let b := { b with implicit := none }
    match b.stack with
    | top :: outer =>
      if outer.length = depth then { b with stack := outer }.addNode (fitToChildren top) else b
    | [] => b

def appendValue? (b : TreeBuilder) (content : String) : Option TreeBuilder :=
  match b.stack with
  | top :: outer =>
    top.value.map fun value => { b with stack := { top with value := some (value ++ content) } :: outer }
  | [] => none

/-- Appends a text to the last node of a list if that is a text, and otherwise adds a new node. -/
def joinText (text : Node) (nodes : List Node) : List Node :=
  match nodes with
  | [] => [text]
  | [last] =>
    match last.kind, last.value with
    | .text, some value =>
      let position := match last.position, text.position with
        | some before, some after => some { before with finish := after.finish }
        | other, _ => other
      [{ last with value := some (value ++ text.value.getD ""), position }]
    | _, _ => [last, text]
  | node :: rest => node :: joinText text rest

def addText (b : TreeBuilder) (content : String) (span : Span) : TreeBuilder :=
  if content.isEmpty then b
  else
    match b.appendValue? content with
    | some b => b
    | none =>
      let text := b.place (Node.text content) span
      match b.stack with
      | top :: outer =>
        { b with stack := { top with children := some (joinText text top.childList) } :: outer }
      | [] => { b with roots := joinText text b.roots }

def addHtml (b : TreeBuilder) (content : String) (span : Span) : TreeBuilder :=
  (b.appendValue? content).getD (b.addLeaf (Node.html content) span)

def checkItem (checked : Bool) : List Node → List Node
  | [] => []
  | node :: outer =>
    if node.kind = .listItem then node.withField "checked" (.bool checked) :: outer
    else node :: checkItem checked outer

/-- An image has the text of its content as a description and no children. -/
def describeImage (node : Node) : Node :=
  { node with children := none }.withField "alt" (.str node.textContent)

def close (b : TreeBuilder) (kind : TagKind) : TreeBuilder :=
  match b.stack with
  | [] => b
  | node :: outer =>
    { b with stack := outer }.addNode (if kind = TagKind.image then describeImage node else node)

def apply (b : TreeBuilder) (event : Event) (span : Span) : TreeBuilder :=
  match event with
  | .start tag => b.openNode tag.node span
  | .stop kind => b.close kind
  | .text content => b.addText content span
  | .code content => b.addLeaf (Node.literal .inlineCode content) span
  | .html content | .inlineHtml content => b.addHtml content span
  | .softBreak => b.addText "\n" span
  | .hardBreak => b.addLeaf (Node.ofKind .lineBreak) span
  | .rule => b.addLeaf (Node.ofKind .thematicBreak) span
  | .footnoteReference label =>
    b.addLeaf (Tag.withIdentifier
      { Node.ofKind .footnoteReference with label := some label } label) span
  | .task checked => { b with stack := checkItem checked b.stack }
  | .inlineMath content => b.addLeaf (Node.literal (.other "inlineMath") content) span
  | .displayMath content => b.addLeaf (Node.literal (.other "math") content) span

def step (b : TreeBuilder) (event : Event) (span : Span) : TreeBuilder :=
  let b := if event.isInline then b.openImplicit span
    else if event.isBlock then b.closeImplicit
    else b
  b.apply event span

def run (b : TreeBuilder) (events : List (Event × Span)) : TreeBuilder :=
  events.foldl (fun b (event, span) => b.step event span) b

/-- The tree of a text of the given length in bytes. Elements that are still open are left out. -/
def finish (b : TreeBuilder) (length : Nat) : Node :=
  b.place (Node.root b.roots) ⟨0, length⟩

end TreeBuilder

def treeOfEvents (text : String) (events : List (Event × Span)) : Node :=
  ((TreeBuilder.mk (LineIndex.ofText text) [] [] none).run events).finish text.utf8ByteSize

end PageTree.Markdown
