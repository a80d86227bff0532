/-!
A Markdown text as an array of characters, read from left to right by index. A source may be cut off
before the end of its text; an index past the cut has no character. A line ends with a line feed, a
carriage return, both, or the end of the source.
-/

namespace PageTree.Markdown

structure Source where
  chars : Array Char
  stop : Nat

def isSpace (c : Char) : Bool := c = ' ' || c = '\t' || c.toNat = 11 || c.toNat = 12

def isLineEnd (c : Char) : Bool := c = '\n' || c = '\r'

def isWhite (c : Char) : Bool := isSpace c || isLineEnd c

namespace Source

def ofText (text : String) : Source :=
  let chars := text.toList.toArray
  ⟨chars, chars.size⟩

def get? (s : Source) (i : Nat) : Option Char := if i < s.stop then s.chars[i]? else none

theorem lt_stop_of_get? {s : Source} {i : Nat} {c : Char} (h : s.get? i = some c) : i < s.stop := by
  unfold get? at h
  split at h
  · assumption
  · simp at h

def upTo (s : Source) (stop : Nat) : Source := { s with stop := min s.stop stop }

def has (s : Source) (i : Nat) (c : Char) : Bool := s.get? i = some c

def startsWith (s : Source) (i : Nat) : List Char → Bool
  | [] => true
  | c :: cs => s.has i c && s.startsWith (i + 1) cs

def slice (s : Source) (start stop : Nat) : List Char := (s.chars.extract start stop).toList

def text (s : Source) (start stop : Nat) : String := String.ofList (s.slice start stop)

def skipWhile (s : Source) (test : Char → Bool) (i : Nat) : Nat :=
  match h : s.get? i with
  | some c => if test c then s.skipWhile test (i + 1) else i
  | none => i
termination_by s.stop - i
decreasing_by
  have := lt_stop_of_get? h
  omega

def find? (s : Source) (c : Char) (i : Nat) : Option Nat :=
  let j := s.skipWhile (fun other => other ≠ c) i
  if s.has j c then some j else none

/-- The number of characters before `i`, but not before `low`, that pass the test without a gap. -/
def countBack (s : Source) (test : Char → Bool) (low : Nat) : Nat → Nat
  | 0 => 0
  | i + 1 =>
    if low ≤ i then
      match s.chars[i]? with
      | some c => if test c then s.countBack test low i + 1 else 0
      | none => 0
    else 0

def runLength (s : Source) (c : Char) (i : Nat) : Nat := s.skipWhile (· = c) i - i

def skipSpaces (s : Source) (i : Nat) : Nat := s.skipWhile isSpace i

/-- The index after the line end at `i`. The end of the source ends a line. -/
def lineEnd? (s : Source) (i : Nat) : Option Nat :=
  match s.get? i with
  | none => some i
  | some c =>
    if c = '\n' then some (i + 1)
    else if c = '\r' then some (if s.has (i + 1) '\n' then i + 2 else i + 1)
    else none

def atLineEnd (s : Source) (i : Nat) : Bool := (s.lineEnd? i).isSome

def blankLine? (s : Source) (i : Nat) : Option Nat := s.lineEnd? (s.skipSpaces i)

def isBlankLine (s : Source) (i : Nat) : Bool := (s.blankLine? i).isSome

def nextLine (s : Source) (i : Nat) : Nat :=
  match s.find? '\n' i with
  | some j => j + 1
  | none => max i s.stop

end Source

end PageTree.Markdown
