import PageTree.Markdown.Inline
import PageTree.Markdown.Source
import PageTree.Text.Ascii

/-!
Addresses between angles: an absolute one with its scheme, or a mail address.
-/

namespace PageTree.Markdown.Autolink

def isSchemePart (c : Char) : Bool :=
  Ascii.isAlphanumeric c || c = '.' || c = '-' || c = '+'

def isAddressPart (c : Char) : Bool := !(c.toNat ≤ 32 || c = '<' || c = '>')

def uri? (s : Source) (i : Nat) : Option Nat := do
  let first ← s.get? i
  if !Ascii.isLetter first then none
  let colon := s.skipWhile isSchemePart i
  if !s.has colon ':' || colon < i + 2 || i + 32 < colon then none
  let last := s.skipWhile isAddressPart colon
  if s.has last '>' then some last else none

def isLocalPart (c : Char) : Bool :=
  Ascii.isAlphanumeric c || ".!#$%&'*+/=?^_\x7b|\x7d~-".toList.contains c || c.toNat = 96

def isLabelPart (c : Char) : Bool := Ascii.isAlphanumeric c || c = '-'

/-- The end of a domain: labels of at most 63 characters, which do not begin or end with a hyphen,
with points between. -/
def domainEnd? (s : Source) : Nat → Nat → Option Nat
  | 0, _ => none
  | steps + 1, i =>
    let last := s.skipWhile isLabelPart i
    if last = i || i + 63 < last || s.has i '-' || s.has (last - 1) '-' then none
    else if s.has last '.' then domainEnd? s steps (last + 1)
    else some last

def mail? (s : Source) (i : Nat) : Option Nat := do
  let sign := s.skipWhile isLocalPart i
  if sign = i || !s.has sign '@' then none
  let last ← domainEnd? s (s.stop + 1) (sign + 1)
  if s.has last '>' then some last else none

def at? (s : Source) (i : Nat) : Option (Nat × LinkForm) :=
  match uri? s i with
  | some last => some (last, .autolink)
  | none => (mail? s i).map fun last => (last, .email)

end PageTree.Markdown.Autolink
