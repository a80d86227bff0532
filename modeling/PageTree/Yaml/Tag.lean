import PageTree.Text.Ascii
import PageTree.Yaml.Cursor
import PageTree.Yaml.Token

/-!
Tokens that name something: anchors, aliases, tags and directives. A tag is written in full between
angle brackets, or as a handle and a suffix. Its characters may be escaped by the octets of their
UTF-8 form. A tag is cut at its first null character.
-/

namespace PageTree.Yaml

def isNameChar (ch : Char) : Bool := Ascii.isAlphanumeric ch || ch = '_' || ch = '-'

def anchorName : Scan String := fun c =>
  let (name, c) := c.takeWhile isNameChar
  let ends (ch : Char) : Bool := ch.toNat = 96 || "?:,]\x7d%@".toList.contains ch
  if name.isEmpty || !(c.atGap 0 || c.at? 0 ends) then none else some (String.ofList name, c)

def isUriChar (verbatim : Bool) (ch : Char) : Bool :=
  isNameChar ch || ";/?:@&=+$.%!~*'()".toList.contains ch
    || (verbatim && (ch = ',' || ch = '[' || ch = ']'))

def uriOctet : Scan Nat := fun c =>
  match c.rest with
  | '%' :: high :: low :: _ =>
    if Ascii.isHexDigit high && Ascii.isHexDigit low then
      some (16 * Ascii.hexValue high + Ascii.hexValue low, c.skip 3)
    else none
  | _ => none

def trailingOctets : Nat → Nat → Scan Nat
  | 0, code, c => some (code, c)
  | count + 1, code, c => do
    let (octet, c) ← uriOctet c
    if octet / 64 = 2 then trailingOctets count (64 * code + octet % 64) c else none

/-- The octets of one character. The first tells how many follow. -/
def uriEscape : Scan Char := fun c => do
  let (octet, c) ← uriOctet c
  let (count, code) ←
    if octet < 0x80 then some (0, octet)
    else if octet / 32 = 6 then some (1, octet % 32)
    else if octet / 16 = 14 then some (2, octet % 16)
    else if octet / 8 = 30 then some (3, octet % 8)
    else none
  let (code, c) ← trailingOctets count code c
  return (Char.ofNat code, c)

def uriLoop (verbatim : Bool) : Nat → List Char → Scan (List Char)
  | 0, done, c => some (done.reverse, c)
  | steps + 1, done, c =>
    match c.peek? 0 with
    | none => some (done.reverse, c)
    | some ch =>
      if ch = '%' then
        match uriEscape c with
        | some (meant, c) => uriLoop verbatim steps (meant :: done) c
        | none => none
      else if isUriChar verbatim ch then uriLoop verbatim steps (ch :: done) (c.skip 1)
      else some (done.reverse, c)

def uri (verbatim : Bool) (known : List Char) : Scan (List Char) := fun c => do
  let (done, next) ← uriLoop verbatim (c.rest.length + 1) known.reverse c
  return (done.takeWhile fun ch => ch.toNat ≠ 0, next)

/-- A percent sign is part of a tag that must not be empty. -/
def nonemptyUri (verbatim : Bool) : Scan (List Char) := fun c =>
  if c.at? 0 (isUriChar verbatim) then uri verbatim [] c else none

/-- Reads an exclamation mark, the name after it, and the mark that closes a handle, if any. -/
def tagHandle : Scan (List Char) := fun c =>
  if !c.has '!' then none
  else
    let (name, c) := (c.skip 1).takeWhile isNameChar
    if c.has '!' then some ('!' :: (name ++ ['!']), c.skip 1) else some ('!' :: name, c)

def isClosedHandle (handle : List Char) : Bool := 1 < handle.length && handle.getLast? = some '!'

/-- Reads a tag. A lone exclamation mark is a tag of its own. -/
def tagToken (flow : Bool) : Scan Token := fun c => do
  let ((handle, suffix), c) ←
    if c.at? 1 (· = '<') then do
      let (suffix, c) ← nonemptyUri true (c.skip 2)
      if c.has '>' then some ((([] : List Char), suffix), c.skip 1) else none
    else do
      let (handle, next) ← tagHandle c
      if isClosedHandle handle then
        let (suffix, c) ← nonemptyUri false next
        some ((handle, suffix), c)
      else
        let (suffix, c) ← uri false handle.tail next
        some (if suffix.isEmpty then ([], ['!']) else (['!'], suffix), c)
  if c.atGap 0 || (flow && c.has ',') then return (.tag handle suffix, c) else none

def versionNumber : Scan Nat := fun c =>
  let (digits, c) := c.takeWhile Char.isDigit
  if digits.isEmpty || 9 < digits.length then none else some (Nat.ofDigitChars 10 digits 0, c)

def versionDirective : Scan Token := fun c => do
  let (major, c) ← versionNumber c
  if !c.has '.' then none
  let (minor, c) ← versionNumber (c.skip 1)
  return (.version major minor, c)

def tagDirective : Scan Token := fun c => do
  let (handle, c) ← tagHandle c
  if !(isClosedHandle handle || handle = ['!']) || !c.at? 0 isBlank then none
  let (meaning, c) ← nonemptyUri true (c.skipWhile isBlank)
  if c.atGap 0 then return (.tagHandle handle meaning, c) else none

def directive : Scan Token := fun c => do
  let (name, c) := c.takeWhile isNameChar
  if !c.atGap 0 then none
  let start := c.skipWhile isBlank
  let (token, c) ←
    if name = "YAML".toList then versionDirective start
    else if name = "TAG".toList then tagDirective start
    else none
  let c := (c.skipWhile isBlank).skipComment
  if c.atLineEnd then return (token, c.skipBreak) else none

end PageTree.Yaml
