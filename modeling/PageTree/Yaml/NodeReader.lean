import PageTree.Yaml.Node
import PageTree.Yaml.TokenStream

/-!
Builds the node of a document from its tokens. The number of an anchor is the number of anchor names
seen before it, so a name that is used again takes a number that a later name may share.
-/

namespace PageTree.Yaml

structure NodeReader where
  rest : List Token
  handles : List (List Char × List Char) := []
  names : List (String × Nat) := []
  anchored : Array (Nat × Node) := #[]
  marks : Nat := 0

abbrev NodeReading := StateT NodeReader Option

namespace NodeReading

def skip : NodeReading Unit := modify fun r => { r with rest := r.rest.drop 1 }

def next? : NodeReading (Option Token) := return (← get).rest.head?

def atOne (tokens : List Token) : NodeReading Bool := return (← next?).any tokens.contains

def expect (token : Token) : NodeReading Unit := do
  if ← atOne [token] then skip else failure

def count (marks : Nat) : NodeReading Unit := modify fun r => { r with marks := r.marks + marks }

def scalar (tag : Option (List Char)) (plain : Bool) (text : String) : NodeReading Node := do
  count 1
  return .scalar tag plain text

def nothing : NodeReading Node := scalar none true ""

def orNothing (ends : List Token) (node : NodeReading Node) : NodeReading Node := do
  if ← atOne ends then nothing else node

def reference (name : String) : NodeReading Node := do
  match (← get).names.lookup name with
  | some anchor => count 1; return .alias anchor
  | none => failure

def beginAnchored (name : String) : NodeReading Nat := do
  let r ← get
  let anchor := r.names.length
  set { r with
    names := (name, anchor) :: r.names.filter (·.1 ≠ name)
    anchored := r.anchored.push (anchor, .empty) }
  return r.anchored.size

/-- Reads a node and keeps it if it has an anchor. -/
def keepAnchored (anchor : Option String) (node : NodeReading Node) : NodeReading Node := do
  match anchor with
  | none => node
  | some name =>
    let place ← beginAnchored name
    let node ← node
    modify fun r => { r with anchored := r.anchored.modify place fun (number, _) => (number, node) }
    return node

def resolveTag (handle suffix : List Char) : NodeReading (List Char) := do
  if handle.isEmpty then return suffix
  match (← get).handles.lookup handle with
  | some meaning => return meaning ++ suffix
  | none => failure

def anchor? : NodeReading (Option String) := do
  match ← next? with
  | some (.anchor name) => skip; return some name
  | _ => return none

def tag? : NodeReading (Option (List Char)) := do
  match ← next? with
  | some (.tag handle suffix) => skip; return some (← resolveTag handle suffix)
  | _ => return none

def properties : NodeReading (Option String × Option (List Char)) := do
  match ← anchor? with
  | some name => return (some name, ← tag?)
  | none =>
    let tag ← tag?
    return (← if tag.isSome then anchor? else pure none, tag)

mutual

/-- Reads a node. Within brackets no collection is written by indentation, and an entry of a sequence
starts a node only where the sequence need not be indented. -/
def node (block indentless : Bool) : Nat → NodeReading Node
  | 0 => failure
  | steps + 1 => do
    match ← next? with
    | some (.alias name) => skip; reference name
    | _ => do
      let (anchor, tag) ← properties
      keepAnchored anchor (content block indentless anchor.isSome tag steps)

def content (block indentless anchored : Bool) (tag : Option (List Char)) : Nat → NodeReading Node
  | 0 => failure
  | steps + 1 => do
    match ← next?, block, indentless with
    | some .blockEntry, _, true =>
      count 2; return .sequence tag (← indentlessItems steps [])
    | some (.scalar plain text), _, _ =>
      skip; scalar (if tag = some ['!'] then none else tag) plain text
    | some .flowSequenceStart, _, _ =>
      skip; count 2; return .sequence tag (← flowItems steps [])
    | some .flowMappingStart, _, _ =>
      skip; count 2; return .mapping tag (← flowEntries steps [])
    | some .blockSequenceStart, true, _ =>
      skip; count 2; return .sequence tag (← blockItems steps [])
    | some .blockMappingStart, true, _ =>
      skip; count 2; return .mapping tag (← blockEntries steps [])
    | _, _, _ => if anchored || tag.isSome then scalar tag true "" else failure

def blockItems : Nat → List Node → NodeReading (List Node)
  | 0, _ => failure
  | steps + 1, done => do
    if ← atOne [.blockEntry] then
      skip
      let item ← orNothing [.blockEntry, .blockEnd] (node true false steps)
      blockItems steps (item :: done)
    else
      expect .blockEnd
      return done.reverse

def indentlessItems : Nat → List Node → NodeReading (List Node)
  | 0, _ => failure
  | steps + 1, done => do
    if ← atOne [.blockEntry] then
      skip
      let item ← orNothing [.blockEntry, .key, .value, .blockEnd] (node true false steps)
      indentlessItems steps (item :: done)
    else return done.reverse

def blockEntries : Nat → List (Node × Node) → NodeReading (List (Node × Node))
  | 0, _ => failure
  | steps + 1, done => do
    if ← atOne [.key] then
      skip
      let key ← orNothing [.key, .value, .blockEnd] (node true true steps)
      let value ← valueOr [.key, .value, .blockEnd] true steps
      blockEntries steps ((key, value) :: done)
    else
      expect .blockEnd
      return done.reverse

def valueOr (ends : List Token) (block : Bool) : Nat → NodeReading Node
  | 0 => failure
  | steps + 1 => do
    if ← atOne [.value] then
      skip
      orNothing ends (node block block steps)
    else nothing

def flowItems : Nat → List Node → NodeReading (List Node)
  | 0, _ => failure
  | steps + 1, done => do
    if !done.isEmpty && !(← atOne [.flowSequenceEnd]) then expect .flowEntry
    if ← atOne [.flowSequenceEnd] then
      skip
      return done.reverse
    else if ← atOne [.key] then
      skip
      flowItems steps ((← pair steps) :: done)
    else flowItems steps ((← node false false steps) :: done)

/-- Reads a mapping of one entry that stands in a sequence without brackets of its own. The token in
place of a missing key is skipped. -/
def pair : Nat → NodeReading Node
  | 0 => failure
  | steps + 1 => do
    count 2
    let key ←
      if ← atOne [.value, .flowEntry, .flowSequenceEnd] then do
        skip
        nothing
      else node false false steps
    let value ← valueOr [.flowEntry, .flowSequenceEnd] false steps
    return .mapping none [(key, value)]

def flowEntries : Nat → List (Node × Node) → NodeReading (List (Node × Node))
  | 0, _ => failure
  | steps + 1, done => do
    if !done.isEmpty && !(← atOne [.flowMappingEnd]) then expect .flowEntry
    if ← atOne [.flowMappingEnd] then
      skip
      return done.reverse
    else if ← atOne [.key] then
      skip
      let key ← orNothing [.value, .flowEntry, .flowMappingEnd] (node false false steps)
      let value ← valueOr [.flowEntry, .flowMappingEnd] false steps
      flowEntries steps ((key, value) :: done)
    else
      let key ← node false false steps
      flowEntries steps ((key, ← nothing) :: done)

end

def addHandle (handle meaning : List Char) : NodeReading Unit := do
  if ((← get).handles.lookup handle).isSome then failure
  modify fun r => { r with handles := (handle, meaning) :: r.handles }

/-- Reads directives. The version is given at most once and must be 1.1 or 1.2. -/
def directives : Nat → Bool → NodeReading Unit
  | 0, _ => failure
  | steps + 1, versioned => do
    match ← next? with
    | some (.version major minor) =>
      if versioned || major ≠ 1 || (minor ≠ 1 && minor ≠ 2) then failure
      skip
      directives steps true
    | some (.tagHandle handle meaning) =>
      skip
      addHandle handle meaning
      directives steps versioned
    | _ => return

/-- The handles that need no declaration come after those that are declared. -/
def defaultHandles : List (List Char × List Char) :=
  [(['!'], ['!']), (['!', '!'], "tag:yaml.org,2002:".toList)]

def addDefaultHandles : NodeReading Unit :=
  modify fun r => { r with handles := r.handles ++ defaultHandles }

def isDirective : Token → Bool
  | .version _ _ => true
  | .tagHandle _ _ => true
  | _ => false

def endsDocument (token : Token) : Bool :=
  isDirective token || token = .documentStart || token = .documentEnd

def root (steps : Nat) : NodeReading Node := do
  if (← next?).any fun token => isDirective token || token = .documentStart then
    directives steps false
    addDefaultHandles
    expect .documentStart
    if (← next?).all endsDocument then nothing else node true false steps
  else
    addDefaultHandles
    node true false steps

def document : NodeReading Document := do
  let node ← root (3 * (← get).rest.length + 8)
  let r ← get
  if r.rest.all (· = .documentEnd) then return ⟨node, r.anchored, r.marks⟩ else failure

end NodeReading

/-- The document of a text, which may be empty but must not be followed by another. -/
def document? (text : String) : Option Document := do
  let tokens ← tokens? text
  if tokens.isEmpty then return ⟨.empty, #[], 1⟩
  let (document, _) ← NodeReading.document.run { rest := tokens }
  return document

end PageTree.Yaml
