import PageTree.Text.Ascii

/-!
Log lines and the progress line. Each step yields the text that it writes. A log line erases a live
progress line before it is written; the progress line is written again, without a line break, at
each change of a counter.
-/

namespace PageTree.Terminal

def escapeCode (code : String) : String := "\x1b[" ++ code

def eraseLine : String := escapeCode "1G" ++ escapeCode "2K"

def colourOf (name : String) : String :=
  let lowered := String.ofList (name.toList.map Ascii.lower)
  if ["heading", "link", "entity"].contains lowered then "94m"
  else if lowered = "done" then "92m"
  else if lowered = "error" then "91m"
  else "93m"

def label (coloured : Bool) (name : String) : String :=
  let plain := "[" ++ name ++ "]"
  if coloured then
    escapeCode "1m" ++ escapeCode (colourOf name) ++ plain ++ escapeCode "39m" ++ escapeCode "0m"
  else plain

structure Counter where
  name : String
  current : Nat
  total : Nat
  deriving DecidableEq

def number (n : Nat) : String := String.ofList (Nat.toDigits 10 n)

namespace Counter

def text (counter : Counter) : String :=
  counter.name ++ "(" ++ number counter.current ++ "/" ++ number counter.total ++ ")"

end Counter

def counterLine (counters : List Counter) : String :=
  " ".intercalate (counters.map Counter.text)

def increment (name : String) : List Counter → Option (List Counter)
  | [] => none
  | counter :: others =>
    if counter.name = name then some ({ counter with current := counter.current + 1 } :: others)
    else (increment name others).map (counter :: ·)

/-- Whether debug lines are shown, whether names are coloured, and the counters of the live progress
line. -/
structure Log where
  verbose : Bool := false
  coloured : Bool := true
  live : Option (List Counter) := none

inductive Step where
  | log (name message : String)
  | debug (name message : String)
  | verbose (on : Bool)
  | progress (items : List (String × Nat))
  | increment (name : String)
  | finish
  | drop

namespace Log

def progressText (log : Log) (counters : List Counter) : String :=
  eraseLine ++ label log.coloured "transform" ++ " " ++ counterLine counters

def line (log : Log) (name message : String) : String :=
  (if log.live.isSome then eraseLine else "") ++ label log.coloured name ++ " " ++ message ++ "\n"

def dropText (log : Log) : String := if log.live.isSome then eraseLine else ""

def startCounters (items : List (String × Nat)) : List Counter :=
  (items.filter fun item => 0 < item.2).map fun item => ⟨item.1, 0, item.2⟩

def step (log : Log) : Step → Log × String
  | .log name message => (log, log.line name message)
  | .debug name message => (log, if log.verbose then log.line name message else "")
  | .verbose on => ({ log with verbose := on }, "")
  | .progress items =>
    let counters := startCounters items
    ({ log with live := some counters }, log.dropText ++ log.progressText counters)
  | .increment name =>
    match log.live.bind (Terminal.increment name) with
    | some counters => ({ log with live := some counters }, log.progressText counters)
    | none => (log, "")
  | .finish =>
    match log.live with
    | some counters => ({ log with live := none }, log.progressText counters ++ "\n")
    | none => (log, "")
  | .drop => ({ log with live := none }, log.dropText)

def run (log : Log) : List Step → Log × String
  | [] => (log, "")
  | step :: steps =>
    let (log, text) := log.step step
    let (log, more) := run log steps
    (log, text ++ more)

end Log

/-- A count with its noun, which takes an `s` unless the count is one. -/
def plural (count : Nat) (noun : String) : String :=
  number count ++ " " ++ noun ++ (if count = 1 then "" else "s")

end PageTree.Terminal
