import PageTree.Markdown.BlockStart
import PageTree.Markdown.Inline
import PageTree.Text.Case

/-!
The block structure of a text. A block has either blocks or pieces of inline content inside. While
a text is read, the open containers form a stack of frames, and a frame that is closed becomes a
block of the one around it.
-/

namespace PageTree.Markdown

inductive BlockKind where
  | paragraph (tight : Bool)
  | heading (level : Nat) (id : Option String) (classes : List String)
  | rule
  | quote
  | list (tight : Bool) (mark : Char) (number : Nat)
  | item (indent : Nat)
  | footnote (label : String)
  | fencedCode (info : String)
  | indentedCode
  | html
  | table (alignments : List Alignment)
  | tableHead
  | tableRow
  | tableCell

def BlockKind.container : BlockKind → Container
  | quote => .quote
  | item indent => .item indent
  | footnote _ => .footnote
  | _ => .plain

structure Block where
  kind : BlockKind
  start : Nat
  stop : Nat
  pieces : List Inline := []
  blocks : List Block := []

namespace Block

def tightenParagraph (block : Block) : Block :=
  match block.kind with
  | .paragraph _ => { block with kind := .paragraph true }
  | _ => block

/-- Marks the paragraphs directly in the items of a tight list. -/
def tighten (block : Block) : Block :=
  match block.kind with
  | .list true _ _ =>
    let tightenItem (item : Block) : Block :=
      { item with blocks := item.blocks.map tightenParagraph }
    { block with blocks := block.blocks.map tightenItem }
  | _ => block

end Block

structure LinkDefinition where
  target : String
  title : String

/-- The labels defined in a text, in their case folded form. The first definition of a label wins. -/
structure Definitions where
  links : List (List Char × LinkDefinition) := []
  footnotes : List (List Char) := []

namespace Definitions

def link? (definitions : Definitions) (label : String) : Option LinkDefinition :=
  definitions.links.lookup (Unicode.caseFold label)

def hasFootnote (definitions : Definitions) (label : String) : Bool :=
  definitions.footnotes.contains (Unicode.caseFold label)

def addLink (definitions : Definitions) (label : String) (link : LinkDefinition) : Definitions :=
  { definitions with links := definitions.links ++ [(Unicode.caseFold label, link)] }

def addFootnote (definitions : Definitions) (label : String) : Definitions :=
  { definitions with footnotes := Unicode.caseFold label :: definitions.footnotes }

end Definitions

structure Frame where
  kind : BlockKind
  start : Nat
  pieces : List Inline := []
  blocks : Array Block := #[]

/-- The open containers, innermost first, and the blocks outside all of them. A blank line is kept
in mind until it is known whether it makes a list loose; `emptyItem` is the end of the line of an
item that has no content yet, and `task` a box that waits for its paragraph. -/
structure Outline where
  frames : List Frame := []
  blocks : Array Block := #[]
  lastBlank : Bool := false
  emptyItem : Option Nat := none
  task : Option Inline := none
  definitions : Definitions := {}

namespace Outline

def spine (o : Outline) : List Container := (o.frames.map fun frame => frame.kind.container).reverse

def append (o : Outline) (block : Block) : Outline :=
  match o.frames with
  | [] => { o with blocks := o.blocks.push block }
  | frame :: outer => { o with frames := { frame with blocks := frame.blocks.push block } :: outer }

def appendPiece (o : Outline) (piece : Inline) : Outline :=
  match o.frames with
  | [] => o
  | frame :: outer => { o with frames := { frame with pieces := frame.pieces ++ [piece] } :: outer }

def openFrame (o : Outline) (kind : BlockKind) (start : Nat) : Outline :=
  { o with frames := { kind, start } :: o.frames }

def close (o : Outline) (stop : Nat) : Outline :=
  match o.frames with
  | [] => o
  | frame :: outer =>
    let block : Block := ⟨frame.kind, frame.start, stop, frame.pieces, frame.blocks.toList⟩
    let emptyItem := match frame.kind with
      | .list true _ _ => none
      | _ => o.emptyItem
    ({ o with frames := outer, emptyItem }).append block.tighten

def closeMany (o : Outline) (stop : Nat) : Nat → Outline
  | 0 => o
  | n + 1 => (o.close stop).closeMany stop n

def topKind (o : Outline) : Option BlockKind := o.frames.head?.map Frame.kind

def isListKind : BlockKind → Bool
  | .list _ _ _ => true
  | _ => false

def isItemKind : BlockKind → Bool
  | .item _ => true
  | _ => false

def isFootnoteKind : BlockKind → Bool
  | .footnote _ => true
  | _ => false

def loosenFrame (frame : Frame) : Frame :=
  match frame.kind with
  | .list _ mark number => { frame with kind := .list false mark number }
  | _ => frame

def loosenTop (o : Outline) : Outline :=
  match o.frames with
  | frame :: outer => { o with frames := loosenFrame frame :: outer }
  | [] => o

def loosenAround (o : Outline) : Outline :=
  match o.frames with
  | frame :: around :: outer => { o with frames := frame :: loosenFrame around :: outer }
  | _ => o

def finishEmptyItem (o : Outline) : Outline :=
  let closed := match o.emptyItem with
    | some stop => if o.lastBlank && o.topKind.any isItemKind then o.close stop else o
    | none => o
  { closed with emptyItem := none }

def finishList (o : Outline) (stop : Nat) : Outline :=
  let o := o.finishEmptyItem
  let o := if o.topKind.any isListKind then o.close stop else o
  if o.lastBlank then { o.loosenAround with lastBlank := false } else o

def openList (o : Outline) (start : Nat) (mark : Char) (number : Nat) : Outline :=
  { o.openFrame (.list true mark number) start with lastBlank := false }

def continueList (o : Outline) (start : Nat) (mark : Char) (number : Nat) : Outline :=
  let o := o.finishEmptyItem
  match o.topKind with
  | some (.list _ mark' _) =>
    if mark' = mark then
      if o.lastBlank then { o.loosenTop with lastBlank := false } else o
    else (o.finishList start).openList start mark number
  | some _ => (o.finishList start).openList start mark number
  | none => o.openList start mark number

def blankLine (o : Outline) : Outline :=
  match o.frames with
  | frame :: outer =>
    match frame.kind with
    | .quote => o
    | .item _ =>
      if o.emptyItem.isSome then
        { o with frames := { frame with kind := .item 0 } :: outer, lastBlank := true }
      else { o with lastBlank := true }
    | _ => { o with lastBlank := true }
  | [] => { o with lastBlank := true }

end Outline

end PageTree.Markdown
