import PageTree.Decimal.Reading
import PageTree.Json.Reader
import PageTree.Text.Ascii
import PageTree.Toml.Basic

/-!
The small pieces of a TOML document: blanks, comments, strings, keys, numbers and moments. Each
function takes what it knows from the front of the text and returns the rest.
-/

namespace PageTree.Toml

abbrev Scan (α : Type) := List Char → Option (α × List Char)

def isBlank (c : Char) : Bool := c = ' ' || c = '\t'

def skipBlank (cs : List Char) : List Char := cs.dropWhile isBlank

def isPlain (c : Char) : Bool := c = '\t' || (32 ≤ c.toNat && c.toNat ≠ 127)

def newline? : List Char → Option (List Char)
  | '\n' :: rest => some rest
  | '\r' :: '\n' :: rest => some rest
  | _ => none

def comment? (cs : List Char) : List Char :=
  match cs with
  | '#' :: rest => rest.dropWhile isPlain
  | _ => cs

def lineEnd? (cs : List Char) : Option (List Char) :=
  match comment? (skipBlank cs) with
  | [] => some []
  | rest => newline? rest

def skipLines : Nat → List Char → List Char
  | 0, cs => cs
  | steps + 1, cs =>
    let rest := comment? (skipBlank cs)
    match newline? rest with
    | some rest => skipLines steps rest
    | none => rest

def codePoint? (digits : List Char) : Option Char :=
  if digits.all Ascii.isHexDigit then
    let n := digits.foldl (fun n digit => 16 * n + Ascii.hexValue digit) 0
    if n.isValidChar then some (Char.ofNat n) else none
  else none

def escape? (c : Char) : Option Char :=
  match c with
  | 'b' => some (Char.ofNat 8)
  | 't' => some '\t'
  | 'n' => some '\n'
  | 'f' => some (Char.ofNat 12)
  | 'r' => some '\r'
  | '"' => some '"'
  | '\\' => some '\\'
  | _ => none

def escaped? : Scan Char
  | 'u' :: a :: b :: c :: d :: rest => (codePoint? [a, b, c, d]).map (·, rest)
  | 'U' :: a :: b :: c :: d :: e :: f :: g :: h :: rest =>
    (codePoint? [a, b, c, d, e, f, g, h]).map (·, rest)
  | c :: rest => (escape? c).map (·, rest)
  | [] => none

def basicText : Nat → List Char → Scan (List Char)
  | 0, _, _ => none
  | steps + 1, done, cs =>
    match cs with
    | '"' :: rest => some (done.reverse, rest)
    | '\\' :: rest => do
      let (c, rest) ← escaped? rest
      basicText steps (c :: done) rest
    | c :: rest => if isPlain c then basicText steps (c :: done) rest else none
    | [] => none

def literalText : List Char → Scan (List Char)
  | _, [] => none
  | done, c :: rest =>
    if c = '\'' then some (done.reverse, rest)
    else if isPlain c then literalText (c :: done) rest
    else none

/-- The end of a text in three quotation marks, before which two more may stand. -/
def tripleEnd? (quote : Char) : Scan (List Char)
  | a :: b :: c :: rest =>
    if a = quote && b = quote && c = quote then
      let extra := (rest.takeWhile (· = quote)).take 2
      some (extra, rest.drop extra.length)
    else none
  | _ => none

def skipWhite : List Char → List Char
  | '\r' :: '\n' :: rest => skipWhite rest
  | c :: rest => if isBlank c || c = '\n' then skipWhite rest else c :: rest
  | [] => []

/-- Goes over a line end after a backslash, with all blanks and line ends around it. -/
def fold? (cs : List Char) : Option (List Char) := (newline? (skipBlank cs)).map skipWhite

/-- The text up to three quotation marks. Escape sequences count only if `escapes` is set. -/
def tripleText (quote : Char) (escapes : Bool) : Nat → List Char → Scan (List Char)
  | 0, _, _ => none
  | steps + 1, done, cs =>
    match tripleEnd? quote cs with
    | some (extra, rest) => some (done.reverse ++ extra, rest)
    | none =>
      match newline? cs with
      | some rest => tripleText quote escapes steps ('\n' :: done) rest
      | none =>
        match cs with
        | [] => none
        | c :: rest =>
          if c = '\\' && escapes then
            match fold? rest with
            | some rest => tripleText quote escapes steps done rest
            | none =>
              match escaped? rest with
              | some (c, rest) => tripleText quote escapes steps (c :: done) rest
              | none => none
          else if isPlain c then tripleText quote escapes steps (c :: done) rest
          else none

def simpleString (quote : Char) (cs : List Char) : Option (List Char × List Char) :=
  if quote = '"' then basicText (cs.length + 1) [] cs else literalText [] cs

def string (quote : Char) (cs : List Char) : Option (List Char × List Char) :=
  match cs with
  | a :: b :: rest =>
    if a = quote && b = quote then
      tripleText quote (quote = '"') (rest.length + 1) [] ((newline? rest).getD rest)
    else simpleString quote cs
  | _ => simpleString quote cs

def isKeyChar (c : Char) : Bool := Ascii.isAlphanumeric c || c = '_' || c = '-'

def keyPart : Scan String
  | '"' :: rest => (simpleString '"' rest).map fun (name, rest) => (String.ofList name, rest)
  | '\'' :: rest => (simpleString '\'' rest).map fun (name, rest) => (String.ofList name, rest)
  | cs =>
    match cs.span isKeyChar with
    | ([], _) => none
    | (name, rest) => some (String.ofList name, rest)

/-- A key may have fewer parts than this. -/
def partLimit : Nat := 80

def keyParts : Nat → Scan (List String)
  | 0, _ => none
  | steps + 1, cs => do
    let (part, rest) ← keyPart (skipBlank cs)
    match skipBlank rest with
    | '.' :: rest => (keyParts steps rest).map fun (parts, rest) => (part :: parts, rest)
    | rest => return ([part], rest)

/-- The path of a key, its last part and the text after it and the blanks behind it. -/
def key (cs : List Char) : Option ((List String × String) × List Char) := do
  let (parts, rest) ← keyParts (partLimit - 1) cs
  let last ← parts.getLast?
  return ((parts.dropLast, last), rest)

def moreDigits (isDigit : Char → Bool) : Scan (List Char)
  | '_' :: c :: rest =>
    if isDigit c then (moreDigits isDigit rest).map fun (ds, rest) => (c :: ds, rest) else none
  | c :: rest =>
    if isDigit c then (moreDigits isDigit rest).map fun (ds, rest) => (c :: ds, rest)
    else some ([], c :: rest)
  | [] => some ([], [])

def digits (isDigit : Char → Bool) : Scan (List Char)
  | c :: rest =>
    if isDigit c then (moreDigits isDigit rest).map fun (ds, rest) => (c :: ds, rest) else none
  | [] => none

/-- The digits of a decimal number before a point. A zero stands alone. -/
def wholeDigits : Scan (List Char)
  | '0' :: rest => some (['0'], rest)
  | cs => digits Char.isDigit cs

def signOf : List Char → Bool × List Char
  | '-' :: rest => (true, rest)
  | '+' :: rest => (false, rest)
  | cs => (false, cs)

def exponent? : Scan (Bool × List Char)
  | c :: rest =>
    if c = 'e' || c = 'E' then
      let (down, rest) := signOf rest
      (digits Char.isDigit rest).map fun (ds, rest) => ((down, ds), rest)
    else none
  | [] => none

/-- A number with a fraction or an exponent. One that is too large is refused, unless it is
negative. -/
def fractional? (cs : List Char) : Option (Toml × List Char) := do
  let (negative, rest) := signOf cs
  let (whole, rest) ← wholeDigits rest
  let (fraction, rest, hasPoint) ← match rest with
    | '.' :: rest => (digits Char.isDigit rest).map fun (ds, rest) => (ds, rest, true)
    | _ => some ([], rest, false)
  let (exponent, rest) := match exponent? rest with
    | some (exponent, rest) => (some exponent, rest)
    | none => (none, rest)
  if !hasPoint && exponent.isNone then none
  let x := Decimal.nearest negative whole fraction exponent
  if x.isInf && !negative then none
  return (.float x.toBits, rest)

def special? (cs : List Char) : Option (Toml × List Char) :=
  let (negative, rest) := signOf cs
  let infinity : Float := if negative then -1.0 / 0.0 else 1.0 / 0.0
  match rest with
  | 'i' :: 'n' :: 'f' :: rest => some (.float infinity.toBits, rest)
  | 'n' :: 'a' :: 'n' :: rest => some (.float (0.0 / 0.0 : Float).toBits, rest)
  | _ => none

def boundedInteger? (n : Int) : Option Toml :=
  if -(Json.i64Bound : Int) ≤ n ∧ n < Json.i64Bound then some (.integer n) else none

def based? (base : Nat) (isDigit : Char → Bool) (cs : List Char) : Option (Toml × List Char) := do
  let (ds, rest) ← digits isDigit cs
  let value ← boundedInteger? (ds.foldl (fun n d => base * n + Ascii.hexValue d) 0 : Nat)
  return (value, rest)

def integer? (cs : List Char) : Option (Toml × List Char) :=
  match cs with
  | '0' :: 'x' :: rest => based? 16 Ascii.isHexDigit rest
  | '0' :: 'o' :: rest => based? 8 (fun c => '0' ≤ c && c ≤ '7') rest
  | '0' :: 'b' :: rest => based? 2 (fun c => c = '0' || c = '1') rest
  | _ => do
    let (negative, rest) := signOf cs
    let (ds, rest) ← wholeDigits rest
    let size : Int := Nat.ofDigitChars 10 ds 0
    let value ← boundedInteger? (if negative then -size else size)
    return (value, rest)

def fixedDigits (count : Nat) (cs : List Char) : Option (Nat × List Char) :=
  let ds := cs.take count
  if ds.length = count && ds.all Char.isDigit then
    some (Nat.ofDigitChars 10 ds 0, cs.drop count)
  else none

def expect (c : Char) : List Char → Option (List Char)
  | d :: rest => if d = c then some rest else none
  | [] => none

def date? (cs : List Char) : Option (Date × List Char) := do
  let (year, rest) ← fixedDigits 4 cs
  let (month, rest) ← fixedDigits 2 (← expect '-' rest)
  let (day, rest) ← fixedDigits 2 (← expect '-' rest)
  let date : Date := ⟨year, month, day⟩
  if date.isValid then some (date, rest) else none

/-- The nanoseconds in the digits after a point. Digits beyond the ninth are dropped. -/
def nanoseconds (ds : List Char) : Nat :=
  let ds := ds.take 9
  Nat.ofDigitChars 10 ds 0 * Nat.pow 10 (9 - ds.length)

def time? (cs : List Char) : Option (Time × List Char) := do
  let (hour, rest) ← fixedDigits 2 cs
  let (minute, rest) ← fixedDigits 2 (← expect ':' rest)
  let (second, rest) ← fixedDigits 2 (← expect ':' rest)
  let (nanosecond, rest) := match rest with
    | '.' :: more =>
      match more.span Char.isDigit with
      | ([], _) => (0, rest)
      | (ds, after) => (nanoseconds ds, after)
    | _ => (0, rest)
  let time : Time := ⟨hour, minute, second, nanosecond⟩
  if time.isValid then some (time, rest) else none

def offset? (cs : List Char) : Option (Offset × List Char) :=
  match cs with
  | [] => none
  | c :: rest =>
    if c = 'Z' || c = 'z' then some (.zulu, rest)
    else if c = '+' || c = '-' then do
      let (hour, rest) ← fixedDigits 2 rest
      let (minute, rest) ← fixedDigits 2 (← expect ':' rest)
      if hour ≤ 23 && minute ≤ 59 then
        let ahead : Int := hour * 60 + minute
        some (.minutes (if c = '-' then -ahead else ahead), rest)
      else none
    else none

def moment? (cs : List Char) : Option (Toml × List Char) :=
  match date? cs with
  | some (date, rest) =>
    let timed := match rest with
      | c :: rest => if c = 'T' || c = 't' || c = ' ' then time? rest else none
      | [] => none
    match timed with
    | none => some (.moment ⟨some date, none, none⟩, rest)
    | some (time, rest) =>
      match offset? rest with
      | some (offset, rest) => some (.moment ⟨some date, some time, some offset⟩, rest)
      | none => some (.moment ⟨some date, some time, none⟩, rest)
  | none => (time? cs).map fun (time, rest) => (.moment ⟨none, some time, none⟩, rest)

end PageTree.Toml
