/-!
The kinds of node in a document tree. A tag outside the known ones is kept as it is, so that trees
with further kinds of node can be read and written back.
-/

namespace PageTree

inductive Kind where
  | root | paragraph | heading | thematicBreak | blockquote | list | listItem
  | table | tableRow | tableCell | html | code | definition | footnoteDefinition
  | text | emphasis | strong | delete | inlineCode | lineBreak | link | image
  | linkReference | imageReference | footnoteReference
  | other (tag : String)
  deriving DecidableEq, Inhabited

namespace Kind

def tag : Kind → String
  | root => "root"
  | paragraph => "paragraph"
  | heading => "heading"
  | thematicBreak => "thematicBreak"
  | blockquote => "blockquote"
  | list => "list"
  | listItem => "listItem"
  | table => "table"
  | tableRow => "tableRow"
  | tableCell => "tableCell"
  | html => "html"
  | code => "code"
  | definition => "definition"
  | footnoteDefinition => "footnoteDefinition"
  | text => "text"
  | emphasis => "emphasis"
  | strong => "strong"
  | delete => "delete"
  | inlineCode => "inlineCode"
  | lineBreak => "break"
  | link => "link"
  | image => "image"
  | linkReference => "linkReference"
  | imageReference => "imageReference"
  | footnoteReference => "footnoteReference"
  | other tag => tag

def known : List Kind :=
  [root, paragraph, heading, thematicBreak, blockquote, list, listItem, table, tableRow,
    tableCell, html, code, definition, footnoteDefinition, text, emphasis, strong, delete,
    inlineCode, lineBreak, link, image, linkReference, imageReference, footnoteReference]

def ofTag (tag : String) : Kind :=
  (known.find? fun kind => kind.tag == tag).getD (other tag)

end Kind

end PageTree
