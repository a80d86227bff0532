import PageTree.Json.Numeral

/-!
Writing JSON. The compact form has no blank outside strings; the pretty form puts every item and
field on a line of its own, indented by two spaces for each level, and keeps an empty array or
object on one line. Only the quote, the backslash and the control characters below the space are
escaped.
-/

namespace PageTree.Json

def hexDigit (n : Nat) : Char :=
  if n < 10 then Char.ofNat ('0'.toNat + n) else Char.ofNat ('a'.toNat + (n - 10))

def escapeChar (c : Char) : List Char :=
  if c = '"' then ['\\', '"']
  else if c = '\\' then ['\\', '\\']
  else if c = '\n' then ['\\', 'n']
  else if c = '\r' then ['\\', 'r']
  else if c = '\t' then ['\\', 't']
  else if c.toNat = 8 then ['\\', 'b']
  else if c.toNat = 12 then ['\\', 'f']
  else if c.toNat < 32 then
    ['\\', 'u', '0', '0', hexDigit (c.toNat / 16), hexDigit (c.toNat % 16)]
  else [c]

def quoted (s : String) : List Char :=
  '"' :: (s.toList.flatMap escapeChar ++ ['"'])

def scalarText : Json → List Char
  | null => "null".toList
  | bool true => "true".toList
  | bool false => "false".toList
  | int n => intText n
  | double bits => doubleText bits
  | str s => quoted s
  | arr _ => []
  | obj _ => []

/-- The separators of a layout at a given depth: after an opening bracket, after a comma, before a
closing bracket and after the name of a field. -/
structure Layout where
  newline : Nat → List Char
  colon : List Char

def compactLayout : Layout := ⟨fun _ => [], [':']⟩

def indentation (depth : Nat) : List Char := '\n' :: List.replicate (2 * depth) ' '

def prettyLayout : Layout := ⟨indentation, [':', ' ']⟩

mutual

def writeAt (layout : Layout) (depth : Nat) : Json → List Char
  | arr [] => ['[', ']']
  | arr (x :: xs) =>
    '[' :: (layout.newline (depth + 1) ++ writeAt layout (depth + 1) x
      ++ writeItems layout depth xs ++ layout.newline depth ++ [']'])
  | obj [] => ['{', '}']
  | obj ((key, x) :: fields) =>
    '{' :: (layout.newline (depth + 1) ++ quoted key ++ layout.colon
      ++ writeAt layout (depth + 1) x
      ++ writeFields layout depth fields ++ layout.newline depth ++ ['}'])
  | scalar => scalarText scalar

def writeItems (layout : Layout) (depth : Nat) : List Json → List Char
  | [] => []
  | x :: xs =>
    ',' :: (layout.newline (depth + 1) ++ writeAt layout (depth + 1) x)
      ++ writeItems layout depth xs

def writeFields (layout : Layout) (depth : Nat) : List (String × Json) → List Char
  | [] => []
  | (key, x) :: fields =>
    ',' :: (layout.newline (depth + 1) ++ quoted key ++ layout.colon
      ++ writeAt layout (depth + 1) x)
      ++ writeFields layout depth fields

end

def layoutOf (pretty : Bool) : Layout := if pretty then prettyLayout else compactLayout

def write (pretty : Bool) (value : Json) : String :=
  String.ofList (writeAt (layoutOf pretty) 0 value)

end PageTree.Json
