import PageTree.Text.Ascii
import PageTree.Yaml.Cursor

/-!
Scalars: plain ones, those in quotation marks, and blocks of lines. A line end between two lines of
text becomes a space; further line ends are kept.
-/

namespace PageTree.Yaml

structure Gap where
  blanks : List Char := []
  broken : Bool := false
  first : List Char := []
  more : List Char := []

namespace Gap

/-- What a gap stands for. A line feed folds into a space unless further line ends follow. -/
def text (gap : Gap) : List Char :=
  if !gap.broken then gap.blanks
  else if gap.first.head? = some '\n' then if gap.more.isEmpty then [' '] else gap.more
  else gap.first ++ gap.more

/-- Reads blanks and line ends. A tab in the indentation of a later line is refused. -/
def read (indent : Int) : Nat → Gap → Scan Gap
  | 0, gap, c => some (gap, c)
  | steps + 1, gap, c =>
    match c.peek? 0 with
    | none => some (gap, c)
    | some ch =>
      if isBlank ch then
        if gap.broken && (c.column : Int) < indent && ch = '\t' then none
        else if gap.broken then read indent steps gap (c.skip 1)
        else read indent steps { gap with blanks := gap.blanks ++ [ch] } (c.skip 1)
      else if isBreak ch then
        let (taken, next) := c.takeBreak
        if gap.broken then read indent steps { gap with more := gap.more ++ taken } next
        else read indent steps { broken := true, first := taken } next
      else some (gap, c)

end Gap

def isFlowMark (ch : Char) : Bool :=
  ch = ',' || ch = '[' || ch = ']' || ch = '\x7b' || ch = '\x7d'

/-- The text so far in reverse, and a gap that counts only if more text follows. -/
structure PlainText where
  done : List Char := []
  gap : Gap := {}

namespace PlainText

def endsAt (flow : Bool) (c : Cursor) : Bool :=
  (c.has ':' && c.atGap 1) || (flow && c.at? 0 isFlowMark)

def readRun (flow : Bool) : Nat → PlainText → Scan PlainText
  | 0, p, c => some (p, c)
  | steps + 1, p, c =>
    match c.peek? 0 with
    | none => some (p, c)
    | some ch =>
      if isBlank ch || isBreak ch then some (p, c)
      else if flow && ch = ':' && c.at? 1 (fun next => isFlowMark next || next = '?') then none
      else if endsAt flow c then some (p, c)
      else readRun flow steps ⟨ch :: (p.gap.text.reverse ++ p.done), {}⟩ (c.skip 1)

def readLoop (flow : Bool) (indent : Int) : Nat → PlainText → Scan PlainText
  | 0, p, c => some (p, c)
  | steps + 1, p, c =>
    if c.atAnyDocumentMark || c.has '#' then some (p, c)
    else do
      let (p, c) ← readRun flow (c.rest.length + 1) p c
      if !c.at? 0 (fun ch => isBlank ch || isBreak ch) then some (p, c)
      else
        let (gap, c) ← Gap.read indent (c.rest.length + 1) {} c
        let p : PlainText := { p with gap }
        if !flow && (c.column : Int) < indent then some (p, c) else readLoop flow indent steps p c

end PlainText

def plainScalar (flow : Bool) (indent : Int) : Scan (String × Bool) := fun c => do
  let (p, c) ← PlainText.readLoop flow indent (c.rest.length + 1) {} c
  return ((String.ofList p.done.reverse, p.gap.broken), c)

def hexNumber (digits : List Char) : Nat :=
  digits.foldl (fun n digit => 16 * n + Ascii.hexValue digit) 0

def codeEscape? (width : Nat) (c : Cursor) : Option (Char × Cursor) :=
  let digits := c.rest.take width
  let n := hexNumber digits
  if digits.length = width && digits.all Ascii.isHexDigit && n.isValidChar then
    some (Char.ofNat n, c.skip width)
  else none

def simpleEscape? (ch : Char) : Option Nat :=
  match ch with
  | '0' => some 0
  | 'a' => some 7
  | 'b' => some 8
  | 't' => some 9
  | '\t' => some 9
  | 'n' => some 10
  | 'v' => some 11
  | 'f' => some 12
  | 'r' => some 13
  | 'e' => some 27
  | ' ' => some 32
  | '"' => some 34
  | '/' => some 47
  | '\\' => some 92
  | 'N' => some 0x85
  | '_' => some 0xA0
  | 'L' => some 0x2028
  | 'P' => some 0x2029
  | _ => none

def escape? (c : Cursor) : Option (Char × Cursor) :=
  match c.rest with
  | 'x' :: _ => codeEscape? 2 (c.skip 1)
  | 'u' :: _ => codeEscape? 4 (c.skip 1)
  | 'U' :: _ => codeEscape? 8 (c.skip 1)
  | ch :: _ => (simpleEscape? ch).map fun n => (Char.ofNat n, c.skip 1)
  | [] => none

/-- Reads text up to a gap or the closing mark, and tells whether a backslash before a line end was
read. -/
def quotedRun (single : Bool) : Nat → List Char → Scan (List Char × Bool)
  | 0, done, c => some ((done, false), c)
  | steps + 1, done, c =>
    match c.peek? 0 with
    | none => some ((done, false), c)
    | some ch =>
      if isBlank ch || isBreak ch then some ((done, false), c)
      else if single then
        if ch = '\'' then
          if c.at? 1 (· = '\'') then quotedRun single steps ('\'' :: done) (c.skip 2)
          else some ((done, false), c)
        else quotedRun single steps (ch :: done) (c.skip 1)
      else if ch = '"' then some ((done, false), c)
      else if ch = '\\' then
        if c.at? 1 isBreak then some ((done, true), (c.skip 1).skipBreak)
        else
          match escape? (c.skip 1) with
          | some (meant, c) => quotedRun single steps (meant :: done) c
          | none => none
      else quotedRun single steps (ch :: done) (c.skip 1)

def quotedLoop (single : Bool) : Nat → List Char → Scan (List Char)
  | 0, _, _ => none
  | steps + 1, done, c =>
    if c.atAnyDocumentMark || c.isEnd then none
    else do
      let ((done, folded), c) ← quotedRun single (c.rest.length + 1) done c
      if c.has (if single then '\'' else '"') then some (done.reverse, c.skip 1)
      else
        let (gap, c) ← Gap.read 0 (c.rest.length + 1) { broken := folded } c
        quotedLoop single steps (gap.text.reverse ++ done) c

def quotedScalar (single : Bool) : Scan String := fun c => do
  let (done, c) ← quotedLoop single (c.rest.length + 2) [] c
  return (String.ofList done, c)

inductive Chomping where
  | strip
  | clip
  | keep
  deriving DecidableEq

def chomping? : Scan Chomping := fun c =>
  if c.has '+' then some (.keep, c.skip 1)
  else if c.has '-' then some (.strip, c.skip 1)
  else none

def increment? : Scan Nat := fun c =>
  match c.peek? 0 with
  | some ch =>
    if ch.isDigit then if ch = '0' then none else some (ch.toNat - '0'.toNat, c.skip 1)
    else some (0, c)
  | none => some (0, c)

def blockHeader : Scan (Chomping × Nat) := fun c => do
  match chomping? c with
  | some (chomping, c) =>
    let (increment, c) ← increment? c
    return ((chomping, increment), c)
  | none =>
    let (increment, c) ← increment? c
    match if increment = 0 then none else chomping? c with
    | some (chomping, c) => return ((chomping, increment), c)
    | none => return ((.clip, increment), c)

/-- Line ends and the indentation after them, and the widest indentation. An `indent` of zero is not
known yet. -/
def blockBreaks (indent : Nat) : Nat → List Char → Nat → Scan (List Char × Nat)
  | 0, breaks, widest, c => some ((breaks, widest), c)
  | steps + 1, breaks, widest, c =>
    let free (column : Nat) : Bool := indent = 0 || column < indent
    let spaces := (c.rest.takeWhile (· = ' ')).length
    let c := c.skip (if indent = 0 then spaces else min spaces (indent - c.column))
    let widest := max widest c.column
    if free c.column && c.has '\t' then none
    else if c.at? 0 isBreak then
      let (taken, next) := c.takeBreak
      blockBreaks indent steps (breaks ++ taken) widest next
    else some ((breaks, widest), c)

/-- The state between two lines: the text in reverse, the end of the last line, whether that line
began with a blank, and the line ends after it. -/
structure BlockText where
  done : List Char := []
  lineBreak : List Char := []
  blank : Bool := false
  breaks : List Char

def blockLines (literal : Bool) (indent : Nat) : Nat → BlockText → Scan BlockText
  | 0, b, c => some (b, c)
  | steps + 1, b, c =>
    if c.column ≠ indent || c.isEnd then some (b, c)
    else do
      let blank := c.at? 0 isBlank
      let folds := !literal && b.lineBreak.head? = some '\n' && !b.blank && !blank
      let between := if folds then if b.breaks.isEmpty then [' '] else [] else b.lineBreak
      let (line, c) := c.takeWhile fun ch => !isBreak ch
      let done := line.reverse ++ (b.breaks.reverse ++ (between.reverse ++ b.done))
      let (lineBreak, c) := c.takeBreak
      let ((breaks, _), c) ← blockBreaks indent (c.rest.length + 1) [] 0 c
      blockLines literal indent steps ⟨done, lineBreak, blank, breaks⟩ c

/-- Reads a block scalar, after its mark, within a collection that starts in column `parent`. -/
def blockScalar (literal : Bool) (parent : Int) : Scan String := fun c => do
  let ((chomping, increment), c) ← blockHeader c
  let c := (c.skipWhile isBlank).skipComment
  if !c.atLineEnd then none
  let c := c.skipBreak
  let known := if increment = 0 then 0 else (max parent 0).toNat + increment
  let ((breaks, widest), c) ← blockBreaks known (c.rest.length + 1) [] 0 c
  let indent := if known = 0 then max (max widest (parent + 1).toNat) 1 else known
  let (b, c) ← blockLines literal indent (c.rest.length + 1) { breaks } c
  let tail := match chomping with
    | .strip => []
    | .clip => b.lineBreak
    | .keep => b.lineBreak ++ b.breaks
  return (String.ofList (b.done.reverse ++ tail), c)

end PageTree.Yaml
