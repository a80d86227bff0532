import PageTree.Markdown.Definition
import PageTree.Markdown.Heading
import PageTree.Markdown.Line

/-!
Reading a text into blocks. Each step looks at one line within the containers that are still open,
opens new containers, and reads the block that begins there to its end.
-/

namespace PageTree.Markdown

namespace BlockReader

def readLine (r : BlockReader) (spine : List Container) (source : Source) (mode : LineMode)
    (i : Nat) (pieces : Array Inline) : Line :=
  LineReader.read ⟨source, spine, r.extensions, mode, i⟩ pieces

/-- One line of code or HTML; the columns left over from a tab come first, as spaces. -/
def appendVerbatim (s : Source) (mark : Mark) (pieces : Array Inline) (columns start stop : Nat) :
    Array Inline :=
  let pieces := if columns = 0 then pieces
    else pieces.push { mark := .literal (List.replicate columns ' '), start, stop := start }
  let add (pieces : Array Inline) (start stop : Nat) : Array Inline :=
    match mark with
    | .text _ => Inline.appendText pieces start stop false
    | _ => pieces.push { mark, start, stop }
  if 2 ≤ stop && s.chars[stop - 2]? = some '\r' then
    add (add pieces start (stop - 2)) (stop - 1) stop
  else add pieces start stop

structure IndentedState where
  ix : Nat
  columns : Nat
  pieces : Array Inline := #[]
  blank : Bool := false
  /-- How many pieces there were after the last line that was not blank, and where it ended. -/
  kept : Nat := 0
  keptStop : Nat := 0

def indentedLines (r : BlockReader) (spine : List Container) :
    Nat → IndentedState → IndentedState × Nat
  | 0, st => (st, st.ix)
  | steps + 1, st =>
    let s := r.source
    let next := s.nextLine st.ix
    let pieces := appendVerbatim s (.text false) st.pieces st.columns st.ix next
    let st := if st.blank then { st with pieces }
      else { st with pieces, kept := pieces.size, keptStop := next }
    let (c, inside) := enterLine s spine next
    let (c, missing) := c.advance s 4
    if !inside || !(missing = 0 || c.atLineEnd s) then (st, next)
    else if s.stop ≤ c.ix then (st, next)
    else indentedLines r spine steps
      { st with ix := c.ix, columns := c.spare, blank := s.isBlankLine c.ix }

def readIndented (r : BlockReader) (o : Outline) (i columns : Nat) : Outline × Nat :=
  let (st, next) := r.indentedLines o.spine (r.source.stop + 1) { ix := i, columns }
  let pieces := Heading.endAt st.keptStop (st.pieces.toList.take st.kept)
  ({ o with lastBlank := st.blank }.append
    { kind := .indentedCode, start := i, stop := st.keptStop, pieces }, next)

/-- Reads to the closing fence or to the end of a container: the pieces, the end of the block and
the start of what follows. -/
def fencedLines (r : BlockReader) (spine : List Container) (mark : Char) (length indent : Nat) :
    Nat → Nat → Array Inline → Array Inline × Nat × Nat
  | 0, i, pieces => (pieces, i, i)
  | steps + 1, i, pieces =>
    let s := r.source
    let (c, inside) := enterLine s spine i
    if !inside then (pieces, i, i)
    else
      let (c, _) := c.advance s indent
      let (close, missing) := c.advance s 4
      let closing := if missing = 0 then none else BlockStart.closingFence? s close.ix mark length
      match closing with
      | some stop => (pieces, stop, (s.blankLine? stop).getD stop)
      | none =>
        let next := s.nextLine c.ix
        fencedLines r spine mark length indent steps next
          (appendVerbatim s (.text false) pieces c.spare c.ix next)

def readFenced (r : BlockReader) (o : Outline) (i indent : Nat) (mark : Char) (length : Nat) :
    Outline × Nat :=
  let s := r.source
  let infoStart := s.skipSpaces (i + length)
  let first := s.nextLine infoStart
  let infoStop := first - s.countBack isWhite infoStart first
  let info := unescape false (s.slice infoStart infoStop)
  let (pieces, stop, next) :=
    r.fencedLines o.spine mark length indent (s.stop + 1) first #[]
  (o.append { kind := .fencedCode info, start := i, stop, pieces := pieces.toList }, next)

/-- Reads lines of HTML up to one that holds the closing text, or up to a blank line if there is
none to look for: the pieces, the end of the block and the start of what follows. -/
def htmlLines (r : BlockReader) (spine : List Container) (closing : Option (List Char)) :
    Nat → Nat → Nat → Array Inline → Array Inline × Nat × Nat
  | 0, i, _, pieces => (pieces, i, i)
  | steps + 1, i, columns, pieces =>
    let s := r.source
    let next := s.nextLine i
    let pieces := appendVerbatim s .htmlLine pieces columns i next
    let (c, inside) := enterLine s spine next
    match closing with
    | some text =>
      if !inside || (Html.find? (s.upTo next) text i).isSome then (pieces, next, next)
      else if s.stop ≤ c.ix then (pieces, c.ix, next)
      else htmlLines r spine closing steps c.ix c.spare pieces
    | none =>
      if !inside || c.atLineEnd s then (pieces, next, next)
      else if s.stop ≤ c.ix || s.isBlankLine c.ix then (pieces, c.ix, next)
      else htmlLines r spine closing steps c.ix c.spare pieces

def readHtml (r : BlockReader) (o : Outline) (i columns : Nat) (closing : Option (List Char)) :
    Outline × Nat :=
  let (pieces, stop, next) := r.htmlLines o.spine closing (r.source.stop + 1) i columns #[]
  (o.append { kind := .html, start := i, stop, pieces := pieces.toList }, next)

def headingKind (level : Nat) (attributes : Option Heading.Attributes) : BlockKind :=
  match attributes with
  | some a => .heading level a.id a.classes
  | none => .heading level none []

def splitAttributes (r : BlockReader) (start stop : Nat) : Nat × Option Heading.Attributes :=
  if r.extensions.headingAttributes then Heading.splitAttributes r.source start stop
  else (stop, none)

def readHeading (r : BlockReader) (o : Outline) (i level : Nat) : Outline × Nat :=
  let s := r.source
  match s.lineEnd? (i + level) with
  | some next => (o.append { kind := .heading level none [], start := i, stop := next }, next)
  | none =>
    let start := s.skipSpaces (i + level)
    let next := s.nextLine start
    let (contentStop, attributes) :=
      if r.extensions.headingAttributes then Heading.splitAttributes s start next else (next, none)
    let source := if r.extensions.headingAttributes then s.upTo contentStop else s
    let line := r.readLine o.spine source .plain start #[]
    let (next, contentStop) :=
      if r.extensions.headingAttributes then (next, contentStop) else (line.next, line.next)
    let pieces := match line.ending with
      | .piece { mark := .hardBreak true, start := j, .. } =>
        if r.extensions.headingAttributes then line.pieces
        else Inline.appendText line.pieces j (j + 1) false
      | _ => line.pieces
    let stop := start + Heading.withoutCloser (s.slice start contentStop)
    (o.append {
      kind := headingKind level attributes
      start := i
      stop := next
      pieces := Heading.endAt stop pieces.toList }, next)

/-- A paragraph that turns out to be a heading because its last line is underlined. -/
def underlined (r : BlockReader) (start level next : Nat) (pieces : List Inline)
    (backslash : Option Nat) : Block :=
  let (kind, pieces) : BlockKind × List Inline := match Heading.lastStop pieces with
    | none => (.heading level none [], pieces)
    | some last =>
      let (contentStop, attributes) := r.splitAttributes start last
      let stop := if backslash.isSome then contentStop
        else contentStop - r.source.countBack isSpace start contentStop
      let pieces := if attributes.isSome then Heading.truncate r.source stop pieces else pieces
      (headingKind level attributes, Heading.endAt stop pieces)
  let pieces := match backslash with
    | some j => (Inline.appendText pieces.toArray j (j + 1) false).toList
    | none => pieces
  { kind, start, stop := next, pieces }

def cells (r : BlockReader) (spine : List Container) :
    Nat → Nat → List Block → List Block × Nat
  | 0, i, done => (done, i)
  | steps + 1, i, done =>
    let s := r.source
    let start := if s.has i '|' then i + 1 else i
    let inner := s.skipSpaces start
    match s.lineEnd? inner with
    | some next => (done, next)
    | none =>
      let line := r.readLine spine s .cell inner #[]
      let cell : Block :=
        { kind := .tableCell, start, stop := line.next, pieces := line.pieces.toList }
      cells r spine steps line.next (done ++ [cell])

/-- A row with as many cells as the table has columns. A row without any cell is none. -/
def row? (r : BlockReader) (spine : List Container) (kind : BlockKind) (columns i : Nat) :
    Option (Block × Nat) :=
  let (found, next) := r.cells spine (r.source.stop + 1) i []
  if found.isEmpty then none
  else
    let empty : Block := { kind := .tableCell, start := next, stop := next }
    let blocks := (found ++ List.replicate (columns - found.length) empty).take columns
    some ({ kind, start := i, stop := next, blocks }, next)

def bodyRows (r : BlockReader) (spine : List Container) (columns : Nat) :
    Nat → Nat → List Block → List Block × Nat
  | 0, i, done => (done, i)
  | steps + 1, i, done =>
    let (c, inside) := enterLine r.source spine i
    let c := c.skipBlanks r.source
    if !inside || r.blockInterrupts c.ix inside true then (done, i)
    else
      match r.row? spine .tableRow columns c.ix with
      | some (row, next) => bodyRows r spine columns steps next (done ++ [row])
      | none => (done, i)

def readTable (r : BlockReader) (o : Outline) (start bodyStart : Nat)
    (alignments : List Alignment) : Outline × Nat :=
  let spine := o.spine
  let columns := alignments.length
  let head := match r.row? spine .tableHead columns start with
    | some (head, _) => [head]
    | none => []
  let (rows, next) := r.bodyRows spine columns (r.source.stop + 1) bodyStart []
  (o.append { kind := .table alignments, start, stop := next, blocks := head ++ rows }, next)

inductive ParagraphEnd where
  | paragraph (pieces : Array Inline) (next : Nat)
  | heading (level : Nat) (pieces : Array Inline) (backslash : Option Nat) (next : Nat)
  | table (alignments : List Alignment) (next : Nat)

def paragraphLines (r : BlockReader) (spine : List Container) :
    Nat → Nat → LineMode → Array Inline → ParagraphEnd
  | 0, i, _, pieces => .paragraph pieces i
  | steps + 1, i, mode, pieces =>
    let s := r.source
    let line := r.readLine spine s mode i pieces
    match line.ending with
    | .table alignments => .table alignments line.next
    | ending =>
      let backslash := match ending with
        | .piece { mark := .hardBreak true, start, .. } => some start
        | _ => none
      let closed := match backslash with
        | some j => Inline.appendText line.pieces j (j + 1) false
        | none => line.pieces
      let (c, inside) := enterLine s spine line.next
      let (c, missing) := c.advance s 4
      let underline := if missing ≠ 0 && inside then BlockStart.underline? s c.ix else none
      match underline with
      | some (level, next) => .heading level line.pieces backslash next
      | none =>
        if missing ≠ 0 && r.interrupts spine c.ix inside then .paragraph closed line.next
        else
          let c := c.skipBlanks s
          if c.atLineEnd s then .paragraph closed line.next
          else
            let pieces := match ending with
              | .piece last => line.pieces.push last
              | _ => line.pieces
            paragraphLines r spine steps c.ix .plain pieces

def readParagraph (r : BlockReader) (o : Outline) (i : Nat) : Outline × Nat :=
  let mode := if r.extensions.tables then LineMode.mayBeHead else .plain
  let pieces := match o.task with
    | some box => #[box]
    | none => #[]
  let o := { o with task := none }
  match r.paragraphLines o.spine (r.source.stop + 1) i mode pieces with
  | .paragraph pieces next =>
    (o.append { kind := .paragraph false, start := i, stop := next, pieces := pieces.toList }, next)
  | .heading level pieces backslash next =>
    (o.append (r.underlined i level next pieces.toList backslash), next)
  | .table alignments next => r.readTable o i next alignments

def openFootnote (o : Outline) (i : Nat) (label : String) : Outline :=
  let o := o.finishList i
  let o := if o.topKind.any Outline.isFootnoteKind then o.close i else o
  { o with definitions := o.definitions.addFootnote label }.openFrame (.footnote label) i

/-- Where the line goes on after the containers that it opens, or the start of the next line if
nothing is left on it. -/
inductive Opened where
  | content (c : Cursor)
  | nextLine (i : Nat)

/-- Opens an item. An item without content on its line waits for the next one. -/
def openItem (r : BlockReader) (o : Outline) (i outer : Nat) (c : Cursor)
    (item : BlockStart.ItemStart) : Outline × Opened :=
  let s := r.source
  let o := o.continueList (i - outer) item.mark item.number
  let o := o.openFrame (.item item.indent) (i - outer)
  match s.blankLine? c.ix with
  | some next => ({ o with emptyItem := some next }, .nextLine next)
  | none =>
    match if r.extensions.taskLists then BlockStart.task? s c else none with
    | none => (o, .content c)
    | some (checked, after) =>
      let box : Inline := { mark := .task checked, start := c.ix, stop := after.ix }
      match s.blankLine? after.ix with
      | some next => ({ o.appendPiece box with emptyItem := some next }, .nextLine next)
      | none => ({ o with task := some box }, .content after)

def openContainers (r : BlockReader) (lineStart : Nat) :
    Nat → Outline → Cursor → Outline × Opened
  | 0, o, c => (o, .content c)
  | steps + 1, o, c =>
    let s := r.source
    let (inner, columns) := c.indentation s 4
    if 4 ≤ columns then (o, .content c)
    else
      match r.footnoteMark? inner.ix with
      | some (last, label) =>
        openContainers r lineStart steps (openFootnote o inner.ix label)
          (Cursor.atStart (s.skipSpaces last))
      | none =>
        match BlockStart.item? s inner columns with
        | some (after, item) =>
          match r.openItem o inner.ix columns after item with
          | (o, .content c) => openContainers r lineStart steps o c
          | done => done
        | none =>
          match inner.takeQuoteMark? s with
          | some after =>
            openContainers r lineStart steps
              ((o.finishList lineStart).openFrame .quote inner.ix) after
          | none => (o, .content c)

def readMarked? (r : BlockReader) (o : Outline) (i columns indent : Nat) : Option (Outline × Nat) :=
  let s := r.source
  let html : Option (Option (List Char)) :=
    if s.has i '<' then
      match Html.blockEnd? s (i + 1) with
      | some text => some (some text)
      | none => if Html.namesBlock s (i + 1) || Html.standsAlone s i then some none else none
    else none
  match html with
  | some closing => some (r.readHtml o i (max columns indent) closing)
  | none =>
    match BlockStart.rule? s i with
    | some next => some (o.append { kind := .rule, start := i, stop := next }, next)
    | none =>
      match BlockStart.heading? s i with
      | some level => some (r.readHeading o i level)
      | none =>
        match BlockStart.fence? s i with
        | some (mark, length) => some (r.readFenced o i indent mark length)
        | none =>
          (r.definition? o.spine i).map fun (last, label, link) =>
            ({ o with definitions := o.definitions.addLink label link },
              (s.blankLine? last).getD last)

/-- Reads the block that begins at a place in a line that is not blank. A list before it ends where
the line starts, or where the text of a paragraph starts. -/
def readBlock (r : BlockReader) (o : Outline) (lineStart : Nat) (c : Cursor) : Outline × Nat :=
  let finished := o.finishList lineStart
  let columns := c.spare
  let (c, indent) := c.indentation r.source 4
  if indent = 4 then r.readIndented finished c.ix c.spare
  else
    match r.readMarked? finished c.ix columns indent with
    | some done => done
    | none => r.readParagraph (o.finishList c.ix) c.ix

def step (r : BlockReader) (o : Outline) (i : Nat) : Outline × Nat :=
  let s := r.source
  let spine := o.spine
  let (c, matched) := (Cursor.atStart i).takeContainers s spine
  let o := o.closeMany i (spine.length - matched)
  match r.openContainers i (s.stop + 1) o c with
  | (o, .nextLine next) => (o, next)
  | (o, .content c) =>
    match s.blankLine? c.ix with
    | some next => (o.blankLine, next)
    | none => r.readBlock o i c

def steps (r : BlockReader) : Nat → Outline → Nat → Outline
  | 0, o, i => o.closeMany i o.frames.length
  | n + 1, o, i =>
    if r.source.stop ≤ i then o.closeMany i o.frames.length
    else
      let (o, next) := r.step o i
      steps r n o next

def read (r : BlockReader) : Outline := r.steps (r.source.stop + 1) {} 0

end BlockReader

end PageTree.Markdown
