import PageTree.Markdown.BlockReader
import PageTree.Markdown.Emphasis
import PageTree.Markdown.Event
import PageTree.Markdown.InlineReader
import PageTree.Markdown.TreeBuilder

/-!
The events of a text, its blocks in order, each with what it holds, and the document tree that is made of
them. The marks of inline content get their meaning only here, when all definitions of the text are known.
-/

namespace PageTree.Markdown

def byteOffsets (source : Source) : Array Nat :=
  source.chars.foldl (fun offsets c => offsets.push (offsets.back?.getD 0 + c.utf8Size)) #[0]

structure EventReader where
  source : Source
  extensions : Extensions
  definitions : Definitions
  offsets : Array Nat

namespace EventReader

abbrev Events := Array (Event × Span)

def span (r : EventReader) (start stop : Nat) : Span :=
  ⟨(r.offsets[start]?).getD 0, (r.offsets[stop]?).getD 0⟩

def content (r : EventReader) (start stop : Nat) : String := r.source.text start stop

inductive Reading where
  | leaf (event : Event)
  | element (tag : Tag)

def reading (r : EventReader) (mark : Mark) (start stop : Nat) : Reading :=
  match mark with
  | .literal meant => .leaf (.text (String.ofList meant))
  | .softBreak => .leaf .softBreak
  | .hardBreak _ => .leaf .hardBreak
  | .task checked => .leaf (.task checked)
  | .code meant => .leaf (.code (String.ofList meant))
  | .html (some meant) => .leaf (.inlineHtml (String.ofList meant))
  | .html none => .leaf (.inlineHtml (r.content start stop))
  | .htmlLine => .leaf (.html (r.content start stop))
  | .footnoteReference label => .leaf (.footnoteReference label)
  | .emphasis => .element .emphasis
  | .strong => .element .strong
  | .strikethrough => .element .strikethrough
  | .link form target title => .element (.link form target title)
  | .image form target title => .element (.image form target title)
  | _ => .leaf (.text (r.content start stop))

def readInlines (r : EventReader) (events : Events) : List Inline → Events
  | [] => events
  | ⟨mark, start, stop, children⟩ :: rest =>
    let span := r.span start stop
    let events := match r.reading mark start stop with
      | .leaf event => events.push (event, span)
      | .element tag =>
        (readInlines r (events.push (.start tag, span)) children).push (.stop tag.kind, span)
    readInlines r events rest

def resolve (r : EventReader) (spine : List Container) (inTable : Bool) (stop : Nat)
    (pieces : List Inline) : List Inline :=
  Emphasis.read (InlineReader.read
    ⟨r.source.upTo stop, spine, inTable, r.extensions, r.definitions⟩ pieces)

/-- The element of a block, if it has one; a rule has none, nor has a paragraph in a tight list. -/
def tag? : BlockKind → Option Tag
  | .paragraph tight => if tight then none else some .paragraph
  | .heading level id classes => some (.heading level id classes)
  | .rule => none
  | .quote => some .quote
  | .list _ mark number =>
    some (.list (if mark = '.' || mark = ')' then some number else none))
  | .item _ => some .item
  | .footnote label => some (.footnote label)
  | .fencedCode info => some (.code (some info))
  | .indentedCode => some (.code none)
  | .html => some .html
  | .table alignments => some (.table alignments)
  | .tableHead => some .tableHead
  | .tableRow => some .tableRow
  | .tableCell => some .tableCell

def holdsInlines : BlockKind → Bool
  | .paragraph _ | .heading _ _ _ | .tableCell => true
  | _ => false

def isTable : BlockKind → Bool
  | .table _ => true
  | _ => false

def isRule : BlockKind → Bool
  | .rule => true
  | _ => false

def readBlocks (r : EventReader) (spine : List Container) (inTable : Bool) (events : Events) :
    List Block → Events
  | [] => events
  | ⟨kind, start, stop, pieces, blocks⟩ :: rest =>
    let span := r.span start stop
    let tag := tag? kind
    let events := match tag with
      | some tag => events.push (.start tag, span)
      | none => if isRule kind then events.push (.rule, span) else events
    let inTable' := inTable || isTable kind
    let pieces := if holdsInlines kind then r.resolve spine inTable' stop pieces else pieces
    let events := r.readInlines events pieces
    let events := readBlocks r (spine ++ [kind.container]) inTable' events blocks
    let events := match tag with
      | some tag => events.push (.stop tag.kind, span)
      | none => events
    readBlocks r spine inTable events rest

end EventReader

def readEvents (extensions : Extensions) (text : String) : List (Event × Span) :=
  let source := Source.ofText text
  let outline := BlockReader.read ⟨source, extensions⟩
  let r : EventReader := ⟨source, extensions, outline.definitions, byteOffsets source⟩
  (r.readBlocks [] false #[] outline.blocks.toList).toList

/-- The document tree of a text. -/
def readTree (extensions : Extensions) (text : String) : Node :=
  treeOfEvents text (readEvents extensions text)

end PageTree.Markdown
