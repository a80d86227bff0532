import PageTree.Markdown.BlockStart
import PageTree.Markdown.Inline

/-!
The structure of a text as a sequence of events: a tag opens an element, a matching end closes it,
and between the two stands what the element holds. Each event knows the bytes that it stands for.
-/

namespace PageTree.Markdown

structure Span where
  start : Nat
  stop : Nat
  deriving DecidableEq

inductive Tag where
  | paragraph
  | heading (level : Nat) (id : Option String) (classes : List String)
  | quote
  | code (info : Option String)
  | html
  | list (start : Option Nat)
  | item
  | footnote (label : String)
  | table (alignments : List Alignment)
  | tableHead
  | tableRow
  | tableCell
  | emphasis
  | strong
  | strikethrough
  | link (form : LinkForm) (target title : String)
  | image (form : LinkForm) (target title : String)
  | metadata
  | definitionList
  | definitionTerm
  | definitionDetails
  | superscript
  | subscript
  deriving DecidableEq

/-- What an end says about the element that it closes. -/
inductive TagKind where
  | paragraph | heading | quote | code | html | list | item | footnote
  | table | tableHead | tableRow | tableCell
  | emphasis | strong | strikethrough | link | image
  | metadata | definitionList | definitionTerm | definitionDetails | superscript | subscript
  deriving DecidableEq

namespace Tag

def kind : Tag → TagKind
  | paragraph => .paragraph
  | heading _ _ _ => .heading
  | quote => .quote
  | code _ => .code
  | html => .html
  | list _ => .list
  | item => .item
  | footnote _ => .footnote
  | table _ => .table
  | tableHead => .tableHead
  | tableRow => .tableRow
  | tableCell => .tableCell
  | emphasis => .emphasis
  | strong => .strong
  | strikethrough => .strikethrough
  | link _ _ _ => .link
  | image _ _ _ => .image
  | metadata => .metadata
  | definitionList => .definitionList
  | definitionTerm => .definitionTerm
  | definitionDetails => .definitionDetails
  | superscript => .superscript
  | subscript => .subscript

def isInline (tag : Tag) : Bool :=
  match tag.kind with
  | .emphasis | .strong | .strikethrough | .link | .image | .superscript | .subscript => true
  | _ => false

end Tag

inductive Event where
  | start (tag : Tag)
  | stop (kind : TagKind)
  | text (content : String)
  | code (content : String)
  | html (content : String)
  | inlineHtml (content : String)
  | softBreak
  | hardBreak
  | rule
  | footnoteReference (label : String)
  | task (checked : Bool)
  | inlineMath (content : String)
  | displayMath (content : String)
  deriving DecidableEq

namespace Event

def isInline : Event → Bool
  | start tag => tag.isInline
  | text _ | code _ | inlineHtml _ | softBreak | hardBreak => true
  | footnoteReference _ | inlineMath _ | displayMath _ => true
  | _ => false

def isBlock : Event → Bool
  | start tag => !tag.isInline
  | stop kind => kind = .item
  | rule | html _ => true
  | _ => false

end Event

end PageTree.Markdown
