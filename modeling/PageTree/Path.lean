/-!
File paths as lists of components. A path is divided at its slashes; empty parts and dots are
dropped, except for a dot that begins a relative path.

The names of files are bytes, and not all of them are text. A byte that belongs to no character stands
in a path as one of the last 128 characters of Unicode, its stray; these characters themselves are
spelled with the strays of their own bytes, so that each path is spelled in one way. Where a path is
shown, every broken sequence of bytes becomes a replacement character.
-/

namespace PageTree

abbrev Path := List Char

namespace Path

def strayStart : Nat := 0x10FF00

/-- The character that stands for a byte from 128 on. -/
def stray (byte : Nat) : Char := Char.ofNat (strayStart + byte)

def byte? (c : Char) : Option Nat :=
  if strayStart + 0x80 ≤ c.toNat then some (c.toNat - strayStart) else none

/-- The bytes of a character among the strays. -/
def ownBytes (byte : Nat) : List Nat := [0xF4, 0x8F, 0xBC + byte / 64, 0x80 + byte % 64]

def spell (c : Char) : Path :=
  match byte? c with
  | none => [c]
  | some byte => (ownBytes byte).map stray

def ofText (text : String) : Path := text.toList.flatMap spell

/-- A sequence of bytes that has begun: the bits so far, how many bytes follow the next one, and the
range of the next one. -/
structure Sequence where
  bits : Nat
  more : Nat
  low : Nat := 0x80
  high : Nat := 0xBF

namespace Sequence

def replacement : Char := Char.ofNat 0xFFFD

/-- What a character between two sequences shows, and the sequence that it begins. -/
def start (c : Char) : List Char × Option Sequence :=
  match byte? c with
  | none => ([c], none)
  | some byte =>
    if 0xC2 ≤ byte ∧ byte ≤ 0xDF then ([], some { bits := byte - 0xC0, more := 0 })
    else if byte = 0xE0 then ([], some { bits := 0, more := 1, low := 0xA0 })
    else if byte = 0xED then ([], some { bits := 0xD, more := 1, high := 0x9F })
    else if 0xE1 ≤ byte ∧ byte ≤ 0xEF then ([], some { bits := byte - 0xE0, more := 1 })
    else if byte = 0xF0 then ([], some { bits := 0, more := 2, low := 0x90 })
    else if 0xF1 ≤ byte ∧ byte ≤ 0xF3 then ([], some { bits := byte - 0xF0, more := 2 })
    else if byte = 0xF4 then ([], some { bits := 4, more := 2, high := 0x8F })
    else ([replacement], none)

/-- The same inside a sequence. A byte that does not go on with it breaks it off. -/
def next (sequence : Sequence) (c : Char) : List Char × Option Sequence :=
  let broken := (replacement :: (start c).1, (start c).2)
  match byte? c with
  | none => broken
  | some byte =>
    if sequence.low ≤ byte ∧ byte ≤ sequence.high then
      let bits := sequence.bits * 64 + byte % 64
      match sequence.more with
      | 0 => ([Char.ofNat bits], none)
      | more + 1 => ([], some { bits, more })
    else broken

end Sequence

def shownFrom : Option Sequence → Path → List Char
  | none, [] => []
  | some _, [] => [Sequence.replacement]
  | none, c :: rest => (Sequence.start c).1 ++ shownFrom (Sequence.start c).2 rest
  | some sequence, c :: rest => (sequence.next c).1 ++ shownFrom (sequence.next c).2 rest

def shown (path : Path) : List Char := shownFrom none path

def display (path : Path) : String := String.ofList path.shown

inductive Component where
  | root
  | current
  | up
  | name (text : List Char)
  deriving DecidableEq

def Component.shown : Component → Component
  | name text => name (Path.shown text)
  | other => other

def isAbsolute : Path → Bool
  | '/' :: _ => true
  | _ => false

def componentOf? (part : List Char) : Option Component :=
  if part = [] ∨ part = ['.'] then none
  else if part = ['.', '.'] then some .up
  else some (.name part)

def components (path : Path) : List Component :=
  let parts := path.splitOn '/'
  let leading := if path.isAbsolute then [.root] else if parts.head? = some ['.'] then [.current] else []
  leading ++ parts.filterMap componentOf?

def stripBase? : List Component → List Component → Option (List Component)
  | path, [] => some path
  | [], _ :: _ => none
  | a :: path, b :: base => if a = b then stripBase? path base else none

def fileName? (components : List Component) : Option (List Char) :=
  match components.getLast? with
  | some (.name text) => some text
  | _ => none

def lastDot (name : List Char) : Option (List Char × List Char) :=
  match name.reverse.span (· ≠ '.') with
  | (_, []) => none
  | (after, _ :: before) => some (before.reverse, after.reverse)

/-- A name divided at its last dot, unless the dot begins it. -/
def splitName (name : List Char) : List Char × Option (List Char) :=
  match lastDot name with
  | some (c :: before, after) => (c :: before, some after)
  | _ => (name, none)

def stem? (path : Path) : Option (List Char) :=
  (fileName? path.components).map fun name => (splitName name).1

def extension? (path : Path) : Option (List Char) :=
  (fileName? path.components).bind fun name => (splitName name).2

def dropExtension (components : List Component) : List Component :=
  match fileName? components with
  | some name => components.dropLast ++ (componentOf? (splitName name).1).toList
  | none => components

def join (base child : Path) : Path :=
  if child.isAbsolute then child
  else if base = [] ∨ base.getLast? = some '/' then base ++ child
  else base ++ '/' :: child

/-- The beginning of a path that belongs to its root or to a dot before everything else. -/
def lead (path : Path) : Path :=
  match path with
  | '/' :: _ => ['/']
  | ['.'] => ['.']
  | '.' :: '/' :: _ => ['.']
  | _ => []

def isIdle (part : List Char) : Bool := part = [] || part = ['.']

def trimParts (parts : List (List Char)) : List (List Char) :=
  (parts.reverse.dropWhile isIdle).reverse

/-- The path without its last component, spelled as it stands. -/
def parent? (path : Path) : Option Path :=
  let parts := trimParts ((path.drop path.lead.length).splitOn '/')
  if parts = [] then if path.lead = ['.'] then some [] else none
  else some (path.lead ++ List.intercalate ['/'] (trimParts parts.dropLast))

/-- The components of a path seen from a working directory. An empty path is seen from nowhere. -/
def absolute (cwd : List Component) (path : Path) : List Component :=
  match path.components with
  | [] => []
  | .current :: rest => cwd ++ rest
  | parts => if path.isAbsolute then parts else cwd ++ parts

def Component.text : Component → List Char
  | root => []
  | current => ['.']
  | up => ['.', '.']
  | name text => text

def render (components : List Component) : Path :=
  match components with
  | [.root] => ['/']
  | parts => List.intercalate ['/'] (parts.map Component.text)

end Path

end PageTree
