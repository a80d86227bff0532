import PageTree.Markdown.Block

/-!
Attributes at the end of a heading, `{#id .class}`, and the cutting off of what does not belong to
its content.
-/

namespace PageTree.Markdown.Heading

structure Attributes where
  id : Option String := none
  classes : List String := []

def endsAttributes (c : Char) : Bool :=
  c = '{' || c = '}' || c = '<' || c = '>' || c = '\\' || isLineEnd c

def addAttribute (attributes : Attributes) (word : List Char) : Attributes :=
  match word with
  | '#' :: c :: rest => { attributes with id := some (String.ofList (c :: rest)) }
  | '.' :: c :: rest =>
    { attributes with classes := attributes.classes ++ [String.ofList (c :: rest)] }
  | _ => attributes

def readAttributes (cs : List Char) : Attributes :=
  (((cs.splitOnP isWhite).filter fun word => !word.isEmpty)).foldl addAttribute {}

def splitAttributes (s : Source) (start stop : Nat) : Nat × Option Attributes :=
  let blanks := s.countBack (fun c => isLineEnd c || c = ' ' || c = '\t') start stop
  let close := stop - blanks - 1
  if stop - blanks ≤ start || s.chars[close]? ≠ some '}' then (stop, none)
  else
    let first := close - s.countBack (fun c => !endsAttributes c) start close
    if first ≤ start || s.chars[first - 1]? ≠ some '{' then (stop, none)
    else (first - 1, some (readAttributes (s.slice first close)))

/-- Drops the pieces behind `stop` and shortens the one that goes over it. A backslash before the cut
that was an escape comes back as a text. -/
def truncate (s : Source) (stop : Nat) : List Inline → List Inline
  | [] => []
  | piece :: rest =>
    if piece.stop < stop then piece :: truncate s stop rest
    else if piece.stop = stop then [piece]
    else if piece.start = stop then
      if 1 ≤ stop && s.chars[stop - 1]? = some '\\' then
        [{ piece with start := stop - 1, stop := stop }]
      else []
    else [{ piece with stop }]

def endAt (stop : Nat) : List Inline → List Inline
  | [] => []
  | [piece] => [{ piece with stop }]
  | piece :: rest => piece :: endAt stop rest

def lastStop (pieces : List Inline) : Option Nat := pieces.getLast?.map Inline.stop

def withoutCloser (cs : List Char) : Nat :=
  let kept := (cs.reverse.dropWhile fun c => isLineEnd c || c = ' ').reverse
  let inner := (kept.reverse.dropWhile (· = '#')).reverse
  if inner.isEmpty then 0
  else
    let spaces := (inner.reverse.takeWhile (· = ' ')).length
    if 0 < spaces then inner.length - spaces else kept.length

end PageTree.Markdown.Heading
