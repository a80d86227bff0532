import PageTree.Markdown.CharacterName
import PageTree.Markdown.Source

/-!
Character references by name or by number, and texts in which references and backslashes are
resolved. A number that names no character stands for the replacement character.
-/

namespace PageTree.Markdown

namespace CharacterReference

def charOfCode (n : Nat) : Char :=
  if n ≠ 0 ∧ n.isValidChar then Char.ofNat n else Char.ofNat 0xFFFD

def digitValue (base : Nat) (cs : List Char) : Nat :=
  cs.foldl (fun n c => n * base + Ascii.hexValue c) 0

/-- The number of digits from `i` on, but at most `limit`. -/
def digitsEnd (s : Source) (test : Char → Bool) (i limit : Nat) : Nat :=
  min (s.skipWhile test i) (i + limit)

def numeric? (s : Source) (i : Nat) : Option (Nat × List Char) :=
  let hex := s.has i 'x' || s.has i 'X'
  let first := if hex then i + 1 else i
  let last := if hex then digitsEnd s Ascii.isHexDigit first 6 else digitsEnd s Char.isDigit first 7
  if first < last && s.has last ';' then
    some (last + 1, [charOfCode (digitValue (if hex then 16 else 10) (s.slice first last))])
  else none

def at? (s : Source) (i : Nat) : Option (Nat × List Char) :=
  if s.has (i + 1) '#' then numeric? s (i + 2)
  else
    let last := s.skipWhile Ascii.isAlphanumeric (i + 1)
    if s.has last ';' then
      (CharacterName.lookup? (s.slice (i + 1) last)).map fun meant => (last + 1, meant)
    else none

end CharacterReference

def isPunctuationAt (s : Source) (i : Nat) : Bool :=
  match s.get? i with
  | some c => Ascii.isPunctuation c
  | none => false

/-- Resolves backslashes and references in a whole source and drops carriage returns. In a table a
pipe may stand behind two backslashes, both of which go. -/
def unescapeFrom (s : Source) (inTable : Bool) : Nat → Nat → List Char
  | 0, _ => []
  | steps + 1, i =>
    match s.get? i with
    | none => []
    | some c =>
      if c = '\\' then
        if inTable && s.has (i + 1) '\\' && s.has (i + 2) '|' then
          '|' :: unescapeFrom s inTable steps (i + 3)
        else
          match s.get? (i + 1) with
          | some next =>
            if Ascii.isPunctuation next then next :: unescapeFrom s inTable steps (i + 2)
            else c :: unescapeFrom s inTable steps (i + 1)
          | none => c :: unescapeFrom s inTable steps (i + 1)
      else if c = '&' then
        match CharacterReference.at? s i with
        | some (next, meant) => meant ++ unescapeFrom s inTable steps next
        | none => c :: unescapeFrom s inTable steps (i + 1)
      else if c = '\r' then unescapeFrom s inTable steps (i + 1)
      else c :: unescapeFrom s inTable steps (i + 1)

def unescape (inTable : Bool) (cs : List Char) : String :=
  let s : Source := ⟨cs.toArray, cs.length⟩
  String.ofList (unescapeFrom s inTable (cs.length + 1) 0)

end PageTree.Markdown
