import PageTree.Json.Numeral

/-!
Reading JSON. A text is first read as a `Written` value, which keeps numerals and repeated names as
they stand; a string literal with half a surrogate pair is well formed but has no text. A `Written`
value then denotes a `Json` value within a limit on how deeply arrays and objects may nest.
-/

namespace PageTree.Json

inductive Written where
  | null
  | bool (value : Bool)
  | num (numeral : Numeral)
  | str (text : Option String)
  | arr (items : List Written)
  | obj (fields : List (Option String × Written))
  deriving Inhabited

def isBlank (c : Char) : Bool := c = ' ' || c = '\n' || c = '\r' || c = '\t'

def skipBlank (cs : List Char) : List Char := cs.dropWhile isBlank

def hexValue? (c : Char) : Option Nat :=
  if '0' ≤ c ∧ c ≤ '9' then some (c.toNat - '0'.toNat)
  else if 'a' ≤ c ∧ c ≤ 'f' then some (c.toNat - 'a'.toNat + 10)
  else if 'A' ≤ c ∧ c ≤ 'F' then some (c.toNat - 'A'.toNat + 10)
  else none

def hexUnit? (a b c d : Char) : Option Nat := do
  let a ← hexValue? a
  let b ← hexValue? b
  let c ← hexValue? c
  let d ← hexValue? d
  return ((a * 16 + b) * 16 + c) * 16 + d

def isLead (unit : Nat) : Bool := 0xD800 ≤ unit && unit < 0xDC00

def isTrail (unit : Nat) : Bool := 0xDC00 ≤ unit && unit < 0xE000

def joinPair (lead trail : Nat) : Char :=
  Char.ofNat (0x10000 + (lead - 0xD800) * 0x400 + (trail - 0xDC00))

def unescape? (c : Char) : Option Char :=
  match c with
  | '"' => some '"'
  | '\\' => some '\\'
  | '/' => some '/'
  | 'b' => some (Char.ofNat 8)
  | 'f' => some (Char.ofNat 12)
  | 'n' => some '\n'
  | 'r' => some '\r'
  | 't' => some '\t'
  | _ => none

def addChar (c : Char) : Option (List Char) × List Char → Option (List Char) × List Char
  | (text, rest) => (text.map (c :: ·), rest)

/-- Reads to the closing quote. The text is absent when a surrogate stands alone. -/
def readText : List Char → Option (Option (List Char) × List Char)
  | '"' :: rest => some (some [], rest)
  | '\\' :: 'u' :: a :: b :: c :: d :: '\\' :: 'u' :: e :: f :: g :: h :: rest => do
    let unit ← hexUnit? a b c d
    if isLead unit then
      let next ← hexUnit? e f g h
      if isTrail next then
        (readText rest).map (addChar (joinPair unit next))
      else
        (readText ('\\' :: 'u' :: e :: f :: g :: h :: rest)).map fun result => (none, result.2)
    else if isTrail unit then
      (readText ('\\' :: 'u' :: e :: f :: g :: h :: rest)).map fun result => (none, result.2)
    else
      (readText ('\\' :: 'u' :: e :: f :: g :: h :: rest)).map (addChar (Char.ofNat unit))
  | '\\' :: 'u' :: a :: b :: c :: d :: rest => do
    let unit ← hexUnit? a b c d
    if isLead unit || isTrail unit then
      (readText rest).map fun result => (none, result.2)
    else
      (readText rest).map (addChar (Char.ofNat unit))
  | '\\' :: c :: rest => do
    let meant ← unescape? c
    (readText rest).map (addChar meant)
  | c :: rest =>
    if c = '\\' || c.toNat < 32 then none else (readText rest).map (addChar c)
  | [] => none
termination_by cs => cs.length

def readString (cs : List Char) : Option (Option String × List Char) :=
  (readText cs).map fun result => (result.1.map String.ofList, result.2)

def digitsOf (cs : List Char) : List Char × List Char := cs.span Char.isDigit

def readWhole (cs : List Char) : Option (List Char × List Char) :=
  match digitsOf cs with
  | ([], _) => none
  | ('0' :: _ :: _, _) => none
  | (digits, rest) => some (digits, rest)

def readFraction (cs : List Char) : Option (List Char × List Char) :=
  match cs with
  | '.' :: rest =>
    match digitsOf rest with
    | ([], _) => none
    | (digits, rest) => some (digits, rest)
  | _ => some ([], cs)

def readPower (down : Bool) (cs : List Char) : Option (Option (Bool × List Char) × List Char) :=
  match digitsOf cs with
  | ([], _) => none
  | (digits, rest) => some (some (down, digits), rest)

def readExponent (cs : List Char) : Option (Option (Bool × List Char) × List Char) :=
  match cs with
  | c :: rest =>
    if c = 'e' || c = 'E' then
      match rest with
      | '+' :: rest => readPower false rest
      | '-' :: rest => readPower true rest
      | _ => readPower false rest
    else some (none, cs)
  | [] => some (none, [])

def readMagnitude (negative : Bool) (cs : List Char) : Option (Numeral × List Char) := do
  let (whole, rest) ← readWhole cs
  let (fraction, rest) ← readFraction rest
  let (exponent, rest) ← readExponent rest
  return (⟨negative, whole, fraction, exponent⟩, rest)

def readNumeral (cs : List Char) : Option (Numeral × List Char) :=
  match cs with
  | '-' :: rest => readMagnitude true rest
  | _ => readMagnitude false cs

mutual

def readValue : Nat → List Char → Option (Written × List Char)
  | 0, _ => none
  | n + 1, cs =>
    match skipBlank cs with
    | 'n' :: 'u' :: 'l' :: 'l' :: rest => some (.null, rest)
    | 't' :: 'r' :: 'u' :: 'e' :: rest => some (.bool true, rest)
    | 'f' :: 'a' :: 'l' :: 's' :: 'e' :: rest => some (.bool false, rest)
    | '"' :: rest => (readString rest).map fun result => (.str result.1, result.2)
    | '[' :: rest =>
      match skipBlank rest with
      | ']' :: rest => some (.arr [], rest)
      | rest => (readItems n rest).map fun result => (.arr result.1, result.2)
    | '{' :: rest =>
      match skipBlank rest with
      | '}' :: rest => some (.obj [], rest)
      | rest => (readFields n rest).map fun result => (.obj result.1, result.2)
    | rest => (readNumeral rest).map fun result => (.num result.1, result.2)

def readItems : Nat → List Char → Option (List Written × List Char)
  | 0, _ => none
  | n + 1, cs => do
    let (item, rest) ← readValue n cs
    match skipBlank rest with
    | ',' :: rest => (readItems n rest).map fun result => (item :: result.1, result.2)
    | ']' :: rest => return ([item], rest)
    | _ => none

def readFields : Nat → List Char → Option (List (Option String × Written) × List Char)
  | 0, _ => none
  | n + 1, cs => do
    let '"' :: rest := skipBlank cs | none
    let (name, rest) ← readString rest
    let ':' :: rest := skipBlank rest | none
    let (value, rest) ← readValue n rest
    match skipBlank rest with
    | ',' :: rest => (readFields n rest).map fun result => ((name, value) :: result.1, result.2)
    | '}' :: rest => return ([(name, value)], rest)
    | _ => none

end

/-- Enough steps for a text: no more than two are taken for a character. -/
def readingSteps (cs : List Char) : Nat := 2 * cs.length + 2

def readDocument (cs : List Char) : Option Written :=
  match readValue (readingSteps cs) cs with
  | some (value, rest) => if (skipBlank rest).isEmpty then some value else none
  | none => none

def depthLimit : Nat := 127

/-- Reads the fields of an object in order; a repeated name keeps its first place and takes its last
value. -/
def Written.fieldsOf (read : Written → Option Json) :
    List (Option String × Written) → Fields → Option Fields
  | [], acc => some acc
  | (name, value) :: rest, acc => do
    let name ← name
    let value ← read value
    fieldsOf read rest (acc.put name value)

def Written.value? : Nat → Written → Option Json
  | _, .null => some .null
  | _, .bool b => some (.bool b)
  | _, .num n => n.value?
  | _, .str s => s.map .str
  | 0, .arr _ => none
  | 0, .obj _ => none
  | depth + 1, .arr items => (items.mapM (value? depth)).map .arr
  | depth + 1, .obj fields => (fieldsOf (value? depth) fields []).map .obj

def parse? (text : String) : Option Json :=
  (readDocument text.toList).bind (Written.value? depthLimit)

end PageTree.Json
