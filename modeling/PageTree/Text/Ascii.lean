/-!
Letter case for ASCII letters only; every other character stays as it is.
-/

namespace PageTree.Ascii

def isUpper (c : Char) : Bool := 'A' ≤ c && c ≤ 'Z'

def lower (c : Char) : Char := if isUpper c then Char.ofNat (c.toNat + 32) else c

def isLetter (c : Char) : Bool := isUpper c || ('a' ≤ c && c ≤ 'z')

def isAlphanumeric (c : Char) : Bool := isLetter c || c.isDigit

def isPunctuation (c : Char) : Bool :=
  ('!' ≤ c && c ≤ '/') || (':' ≤ c && c ≤ '@') || ('[' ≤ c && c.toNat ≤ 96)
    || ('{' ≤ c && c ≤ '~')

def isHexDigit (c : Char) : Bool := c.isDigit || ('a' ≤ c && c ≤ 'f') || ('A' ≤ c && c ≤ 'F')

def hexValue (c : Char) : Nat :=
  if c.isDigit then c.toNat - '0'.toNat
  else if 'a' ≤ c && c ≤ 'f' then c.toNat - 'a'.toNat + 10
  else if 'A' ≤ c && c ≤ 'F' then c.toNat - 'A'.toNat + 10
  else 0

end PageTree.Ascii
