import PageTree.Markdown.BlockStart
import PageTree.Markdown.CharacterReference
import PageTree.Markdown.Inline
import PageTree.Text.Punctuation

/-!
Reading one line of text into pieces. Plain stretches become texts, and characters that may begin or
end inline content become marks. The line ends with a break, with the head of a table, or with the
source. In a table a cell ends at the next pipe.
-/

namespace PageTree.Markdown

/-- Whether the line may be the head of a table, belongs to a cell, or neither. -/
inductive LineMode where
  | plain
  | mayBeHead
  | cell
  deriving DecidableEq

inductive LineEnd where
  | none
  | piece (last : Inline)
  | table (alignments : List Alignment)

structure Line where
  pieces : Array Inline
  next : Nat
  ending : LineEnd

structure DelimiterRun where
  mark : Char
  length : Nat
  before : Option Char
  after : Option Char
  inCell : Bool
  /-- Whether the character before is a pipe that begins a cell. -/
  afterPipe : Bool

namespace DelimiterRun

def canOpen (run : DelimiterRun) : Bool :=
  match run.after with
  | none => false
  | some next =>
    if Unicode.isBlank next then false
    else
      match run.before with
      | none => true
      | some previous =>
        if run.inCell && run.afterPipe then true
        else if run.inCell && next = '|' then false
        else if run.mark = '*' && !Unicode.isPunctuation next then true
        else if run.mark = '~' && 1 < run.length then true
        else if run.mark = '~' && previous = '~' && !Unicode.isPunctuation next then true
        else Unicode.isBlank previous || Unicode.isPunctuation previous

def canClose (run : DelimiterRun) : Bool :=
  match run.before with
  | none => false
  | some previous =>
    if Unicode.isBlank previous then false
    else
      match run.after with
      | none => true
      | some next =>
        if run.inCell && run.afterPipe then false
        else if run.inCell && next = '|' then true
        else if (run.mark = '*' || (run.mark = '~' && 1 < run.length))
            && !Unicode.isPunctuation previous then true
        else if run.mark = '~' && previous = '~' then true
        else Unicode.isBlank next || Unicode.isPunctuation next

/-- One piece for each delimiter, with the number of those from it on. -/
def pieces (run : DelimiterRun) (i : Nat) : List Inline :=
  (List.range run.length).map fun k => {
    mark := .delimiter run.mark (run.length - k) run.canOpen run.canClose
    start := i + k
    stop := i + k + 1 }

end DelimiterRun

structure LineReader where
  source : Source
  spine : List Container
  extensions : Extensions
  mode : LineMode
  start : Nat

/-- Where the reading stands: the pieces so far, the start of the current plain text and whether a
backslash stands before it, and the pipes seen. -/
structure LineState where
  ix : Nat
  textStart : Nat
  escaped : Bool := false
  pieces : Array Inline
  pipes : Nat := 0
  lastPipe : Nat

namespace LineState

def flush (st : LineState) (stop : Nat) : Array Inline :=
  Inline.appendText st.pieces st.textStart stop st.escaped

def mark (st : LineState) (mark : Mark) (stop : Nat) : LineState :=
  { st with
    ix := stop
    textStart := stop
    escaped := false
    pieces := (st.flush st.ix).push { mark, start := st.ix, stop } }

def skip (st : LineState) (count : Nat) : LineState := { st with ix := st.ix + count }

end LineState

namespace LineReader

def table? (r : LineReader) (st : LineState) (next : Nat) : Option (Nat × List Alignment) := do
  if !(r.mode = .mayBeHead && 0 < st.pipes) then none
  let (c, entered) := enterLine r.source r.spine next
  if !entered then none
  let (after, alignments) ← BlockStart.tableLine? r.source c.ix
  if alignments.length = BlockStart.headColumns r.source st.pipes r.start st.lastPipe then
    some (after, alignments)
  else none

def breakLine (r : LineReader) (st : LineState) (next : Nat) : Line :=
  match r.table? st next with
  | some (after, alignments) => ⟨st.pieces, after, .table alignments⟩
  | none =>
    let s := r.source
    let backslashes := s.countBack (· = '\\') 0 st.ix
    if backslashes % 2 = 1 && next < s.stop then
      let start := st.ix - 1
      ⟨st.flush start, next, .piece { mark := .hardBreak true, start, stop := next }⟩
    else
      let blanks := s.countBack isSpace 0 st.ix
      let textStop := st.ix - blanks
      let last : Inline := if 2 ≤ blanks then
          { mark := .hardBreak false, start := textStop, stop := next }
        else { mark := .softBreak, start := st.ix, stop := next }
      ⟨st.flush textStop, next, .piece last⟩

def close (r : LineReader) (st : LineState) : Line :=
  let blanks := r.source.countBack isSpace st.textStart st.ix
  ⟨st.flush (st.ix - blanks), st.ix, .none⟩

def backslash (r : LineReader) (st : LineState) : LineState :=
  let s := r.source
  if isPunctuationAt s (st.ix + 1) then
    let pieces := st.flush st.ix
    let inCell := r.mode = .cell
    if (s.get? (st.ix + 1)).any (fun c => c.toNat = 96) then
      let stop := s.skipWhile (fun c => c.toNat = 96) (st.ix + 1)
      let run : Inline :=
        { mark := .backticks (stop - (st.ix + 1)) true, start := st.ix + 1, stop }
      { st with ix := stop, textStart := stop, escaped := false, pieces := pieces.push run }
    else if s.has (st.ix + 1) '|' && inCell then
      { st with ix := st.ix + 2, textStart := st.ix + 1, escaped := false, pieces }
    else if s.has (st.ix + 1) '\\' && s.has (st.ix + 2) '|' && inCell then
      { st with ix := st.ix + 3, textStart := st.ix + 2, escaped := true, pieces }
    else { st with ix := st.ix + 2, textStart := st.ix + 1, escaped := true, pieces }
  else st.skip 1

def charBefore? (r : LineReader) (i : Nat) : Option Char :=
  if r.start < i then r.source.get? (i - 1) else none

def delimiters (r : LineReader) (st : LineState) (mark : Char) : LineState :=
  let s := r.source
  let length := s.runLength mark st.ix
  let run : DelimiterRun :=
    ⟨mark, length, r.charBefore? st.ix, s.get? (st.ix + length), r.mode = .cell,
      r.charBefore? st.ix = some '|' && r.charBefore? (st.ix - 1) ≠ some '\\'⟩
  if (run.canOpen || run.canClose) && (mark ≠ '~' || length ≤ 2) then
    { st with
      ix := st.ix + length
      textStart := st.ix + length
      escaped := false
      pieces := st.flush st.ix ++ (run.pieces st.ix).toArray }
  else st.skip length

def step (r : LineReader) (st : LineState) (c : Char) : LineState :=
  let s := r.source
  match c with
  | '\\' => r.backslash st
  | '*' => r.delimiters st '*'
  | '_' => r.delimiters st '_'
  | '~' => if r.extensions.strikethrough then r.delimiters st '~' else st.skip 1
  | '<' => if s.has (st.ix + 1) '\\' then st.skip 1 else st.mark .angle (st.ix + 1)
  | '!' => if s.has (st.ix + 1) '[' then st.mark .openImage (st.ix + 2) else st.skip 1
  | '[' => st.mark .openBracket (st.ix + 1)
  | ']' => st.mark (.closeBracket true) (st.ix + 1)
  | '&' =>
    match CharacterReference.at? s st.ix with
    | some (next, meant) => st.mark (.literal meant) next
    | none => st.skip 1
  | '|' =>
    if st.ix ≠ 0 && s.has (st.ix - 1) '\\' then st.skip 1
    else { st with ix := st.ix + 1, lastPipe := st.ix, pipes := st.pipes + 1 }
  | _ =>
    if c.toNat = 96 then
      let stop := s.skipWhile (· = c) st.ix
      st.mark (.backticks (stop - st.ix) false) stop
    else st.skip 1

def endsCell (r : LineReader) (st : LineState) : Bool :=
  r.mode = .cell && !(st.ix ≠ 0 && r.source.has (st.ix - 1) '\\')

def loop (r : LineReader) : Nat → LineState → Line
  | 0, st => r.close st
  | steps + 1, st =>
    match r.source.get? st.ix with
    | none => r.close st
    | some c =>
      if isLineEnd c then
        if r.mode = .cell then r.close st
        else
          match r.source.lineEnd? st.ix with
          | some next => r.breakLine st next
          | none => r.close st
      else if c = '|' && r.endsCell st then r.close st
      else r.loop steps (r.step st c)

def read (r : LineReader) (pieces : Array Inline) : Line :=
  r.loop (r.source.stop - r.start + 1)
    { ix := r.start, textStart := r.start, pieces, lastPipe := r.start }

end LineReader

end PageTree.Markdown
