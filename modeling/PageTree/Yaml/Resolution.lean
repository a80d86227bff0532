import PageTree.Decimal.Reading
import PageTree.Json.Basic
import PageTree.Text.Ascii

/-!
What scalars mean. A plain scalar without a tag may stand for null, a truth value or a number; a
number of decimal digits with a leading zero is text. A tag asks for one of these kinds, and the
scalar must then be of it. Integers that need more than 64 bits but at most 128 are refused, and
larger ones are read as doubles.
-/

namespace PageTree.Yaml

def isNull (text : String) : Bool := ["~", "null", "Null", "NULL"].contains text

def boolean? (text : String) : Option Bool :=
  if ["true", "True", "TRUE"].contains text then some true
  else if ["false", "False", "FALSE"].contains text then some false
  else none

def isDigitOf (radix : Nat) (ch : Char) : Bool := Ascii.isHexDigit ch && Ascii.hexValue ch < radix

def natural? (radix : Nat) (digits : List Char) : Option Nat :=
  if digits.isEmpty || !digits.all (isDigitOf radix) then none
  else some (digits.foldl (fun n digit => radix * n + Ascii.hexValue digit) 0)

def hasLeadingZero : List Char → Bool
  | '0' :: rest => !rest.isEmpty && rest.all Char.isDigit
  | _ => false

def magnitude? : List Char → Option Nat
  | '0' :: 'x' :: digits => natural? 16 digits
  | '0' :: 'o' :: digits => natural? 8 digits
  | '0' :: 'b' :: digits => natural? 2 digits
  | digits => if hasLeadingZero digits then none else natural? 10 digits

def takeSign : List Char → Bool × List Char
  | '-' :: rest => (true, rest)
  | '+' :: rest => (false, rest)
  | rest => (false, rest)

def integer? (text : List Char) : Option Int :=
  let (negative, rest) := takeSign text
  (magnitude? rest).map fun (n : Nat) => if negative then -(n : Int) else n

def fitsWord (n : Int) : Bool := -Json.i64Bound ≤ n && n < Json.u64Bound

def fitsTwoWords (n : Int) : Bool :=
  -0x80000000000000000000000000000000 ≤ n && n < 0x100000000000000000000000000000000

def isInfinity (text : List Char) : Bool :=
  let word := String.ofList (takeSign text).2
  [".inf", ".Inf", ".INF"].contains word

def isNotANumber (text : List Char) : Bool :=
  [".nan", ".NaN", ".NAN"].contains (String.ofList text)

/-- The sign and the digits of an exponent with its mark, or no exponent for an empty text. -/
def exponent? : List Char → Option (Option (Bool × List Char))
  | [] => some none
  | mark :: rest =>
    let (down, digits) := takeSign rest
    if (mark = 'e' || mark = 'E') && !digits.isEmpty && digits.all Char.isDigit then
      some (some (down, digits))
    else none

def decimal? (text : List Char) : Option Float := do
  let (negative, rest) := takeSign text
  let whole := rest.takeWhile Char.isDigit
  let rest := rest.dropWhile Char.isDigit
  let (fraction, rest) := match rest with
    | '.' :: rest => (rest.takeWhile Char.isDigit, rest.dropWhile Char.isDigit)
    | _ => ([], rest)
  if whole.isEmpty && fraction.isEmpty then none
  let x := Decimal.nearest negative whole fraction (← exponent? rest)
  if x.isFinite then some x else none

/-- The value of a double. What is not finite has no value of its own and becomes null. -/
def double? (text : List Char) : Option Json :=
  if isInfinity text || isNotANumber text then some .null else (decimal? text).map Json.ofFloat

def integerValue? (n : Int) : Option Json := if fitsWord n then some (.int n) else none

def plainValue? (text : String) : Option Json :=
  if text.isEmpty || isNull text then some .null
  else
    match boolean? text, (integer? text.toList).filter fitsTwoWords with
    | some b, _ => some (.bool b)
    | none, some n => integerValue? n
    | none, none =>
      if hasLeadingZero (takeSign text.toList).2 then some (.str text)
      else some ((double? text.toList).getD (.str text))

/-- The value of a scalar with a tag. Tags that are not of the common kinds leave the text as it is,
and tags of the document's own are refused. -/
def taggedValue? (tag : List Char) (text : String) : Option Json :=
  if tag.head? = some '!' then none
  else
    match String.ofList tag with
    | "tag:yaml.org,2002:bool" => (boolean? text).map .bool
    | "tag:yaml.org,2002:int" => (integer? text.toList).bind integerValue?
    | "tag:yaml.org,2002:float" => double? text.toList
    | "tag:yaml.org,2002:null" => if isNull text then some .null else none
    | _ => some (.str text)

def scalarValue? (tag : Option (List Char)) (plain : Bool) (text : String) : Option Json :=
  match tag with
  | some tag => taggedValue? tag text
  | none => if plain then plainValue? text else some (.str text)

end PageTree.Yaml
