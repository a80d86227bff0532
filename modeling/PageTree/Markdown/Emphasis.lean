import PageTree.Markdown.Inline

/-!
Emphasis. Delimiters that open are kept on a stack; one that closes is matched with the nearest
suitable one, and what lies between becomes its content. Two delimiters make strong emphasis and one
makes plain emphasis, from the inside out. Tildes match only runs of the same length and strike
their content through.
-/

namespace PageTree.Markdown.Emphasis

/-- Delimiters that may open emphasis: where the first of them stands among the finished pieces, how
many are left, and how long their run was. -/
structure Opener where
  place : Nat
  count : Nat
  length : Nat
  char : Char
  both : Bool

/-- The openers, innermost first. After a search for tildes has failed, the openers that it went
through are out of reach of every later one: `tildeBound` of them, from the outermost on. -/
structure State where
  done : Array Inline := #[]
  openers : List Opener := []
  tildeBound : Nat := 0

structure Closer where
  char : Char
  length : Nat
  both : Bool

/-- Two runs of which one opens and closes do not match when their lengths add up to a multiple of
three, unless both lengths are such multiples. -/
def Closer.fits (c : Closer) (o : Opener) : Bool :=
  o.char = c.char
    && (c.char ≠ '~' || c.length = o.length)
    && ((!c.both && !o.both) || (c.length + o.length) % 3 ≠ 0 || c.length % 3 = 0)

def search (c : Closer) : List Opener → Option (Opener × List Opener)
  | [] => none
  | o :: outer => if c.fits o then some (o, outer) else search c outer

def findOpener (c : Closer) (st : State) : Option (Opener × List Opener) :=
  if c.char = '~' then
    search c (st.openers.take (st.openers.length - st.tildeBound)) |>.map fun (o, inner) =>
      (o, inner ++ st.openers.drop (st.openers.length - st.tildeBound))
  else search c st.openers

def markOf (char : Char) (width : Nat) : Mark :=
  if char = '~' then .strikethrough else if width = 2 then .strong else .emphasis

/-- Wraps content in `count` delimiters on each side, two at a time from the inside out. The lists
hold the delimiters of both sides, nearest to the content first. -/
def wrapAll (char : Char) : Nat → List Inline → List Inline → List Inline → List Inline
  | 0, _, _, content => content
  | steps + 1, before, after, content =>
    match before, after with
    | _ :: b :: before, _ :: a :: after =>
      wrapAll char steps before after
        [{ mark := markOf char 2, start := b.start, stop := a.stop, children := content }]
    | b :: _, a :: _ =>
      [{ mark := markOf char 1, start := b.start, stop := a.stop, children := content }]
    | _, _ => content

/-- Matches the delimiters at the front of a run with openers, as many as possible. The result is
the state and the delimiters that are left. -/
def closeRun (c : Closer) : Nat → State → List Inline → State × List Inline
  | 0, st, run => (st, run)
  | steps + 1, st, run =>
    if run.isEmpty then (st, [])
    else
      match findOpener c st with
      | none =>
        (if c.char = '~' then { st with tildeBound := st.openers.length } else st, run)
      | some (o, outer) =>
        let matched := min run.length o.count
        let kept := o.count - matched
        let before := (st.done.extract (o.place + kept) (o.place + o.count)).toList.reverse
        let content := (st.done.extract (o.place + o.count) st.done.size).toList
        let wrapped := wrapAll c.char matched before (run.take matched) content
        let openers := if kept = 0 then outer else { o with count := kept } :: outer
        closeRun c steps {
          done := st.done.extract 0 (o.place + kept) ++ wrapped.toArray
          openers
          tildeBound := min st.tildeBound outer.length } (run.drop matched)

def openRun (st : State) (c : Closer) (canOpen : Bool) (run : List Inline) : State :=
  let opener : Opener := ⟨st.done.size, run.length, c.length, c.char, c.both⟩
  { st with
    done := st.done ++ run.toArray
    openers := if canOpen && !run.isEmpty then opener :: st.openers else st.openers }

def step (st : State) (piece : Inline) (rest : List Inline) : State × List Inline :=
  match piece.mark with
  | .delimiter char count canOpen canClose =>
    let run := piece :: rest.take (count - 1)
    let rest := rest.drop (count - 1)
    let c : Closer := ⟨char, count, canOpen && canClose⟩
    let (st, left) := if canClose then closeRun c (count + 1) st run else (st, run)
    (openRun st c canOpen left, rest)
  | .hardBreak true =>
    let piece := if rest.isEmpty then { piece with mark := .literal ['\\'] } else piece
    ({ st with done := st.done.push piece }, rest)
  | _ => ({ st with done := st.done.push piece }, rest)

def loop : Nat → State → List Inline → List Inline
  | 0, st, pieces => st.done.toList ++ pieces
  | _ + 1, st, [] => st.done.toList
  | steps + 1, st, piece :: rest =>
    let (st, rest) := step st piece rest
    loop steps st rest

def readLevel (pieces : List Inline) : List Inline := loop (pieces.length + 1) {} pieces

mutual

def read (pieces : List Inline) : List Inline := readLevel (readInside pieces)

def readInside : List Inline → List Inline
  | [] => []
  | ⟨mark, start, stop, children⟩ :: rest =>
    ⟨mark, start, stop, readLevel (readInside children)⟩ :: readInside rest

end

end PageTree.Markdown.Emphasis
