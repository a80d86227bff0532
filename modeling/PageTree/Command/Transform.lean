import PageTree.Command.Arguments
import PageTree.Command.Outcome
import PageTree.Site.PageId

/-!
Transforming files. A single input may be printed; several go into a folder. Each input of a batch has a
worker, which reads it, opens its output, writes the output and counts the changes, one step at a time.
The turns say which worker takes the next step; after the last turn the inputs are finished in the order
of the arguments, so that without any turns one worker at a time is at work. An input that fails keeps
all workers from taking another one.
-/

namespace PageTree.Command

/-- What all inputs of a run have in common. -/
structure Batch where
  cwd : Place
  arguments : TransformArguments
  config : Config
  base : PageContext
  passes : Passes

def resolvePasses (arguments : TransformArguments) (passes : Passes) : Passes :=
  ⟨arguments.heading.getD passes.heading, arguments.link.getD passes.link,
    arguments.entity.getD passes.entity⟩

namespace Batch

def absolute (b : Batch) (path : Path) : List Path.Component :=
  Path.absolute (.root :: b.cwd.map .name) path

def contentComponents (b : Batch) : List Path.Component := b.config.contentFolder.components

def below (b : Batch) (path : Path) : List Path.Component :=
  (Path.stripBase? (b.absolute path) b.contentComponents).getD (b.absolute path)

def pageId (b : Batch) (path : Path) : String :=
  match b.arguments.id.or b.config.page.id with
  | some id => id
  | none =>
    String.ofList
      (PageId.ofBelow ((b.below path).map Path.Component.shown) b.config.site.index.toList)

def selfPath (b : Batch) (path : Path) : Path :=
  match b.config.page.selfPath with
  | some fixed => fixed
  | none => Path.render (b.below path)

def transformer (b : Batch) (path : Path) : Transformer :=
  { context := { b.base with id := some (b.pageId path), selfPath := some (b.selfPath path).display }
    passes := b.passes }

structure Processed where
  stats : Stats
  text : String
  log : List Terminal.Step

def processTree (b : Batch) (path : Path) (tree : Node) : Processed :=
  let file := path.display
  let (tree, changes) := (b.transformer path).run tree
  let start := file ++ " as page `" ++ b.pageId path ++ "`"
  { stats := Stats.ofChanges changes
    text := tree.encode b.arguments.pretty
    log := .debug "transform" start :: Transformer.logSteps (some file) changes }

def process (b : Batch) (files : FileSystem) (path : Path) (format : InputFormat) :
    Except RunError Processed :=
  (readInput ⟨files, b.cwd⟩ path format).map (b.processTree path)

def formatName : InputFormat → String
  | .json => "json"
  | .markdown => "markdown"

/-- How far a worker has come with its input. -/
inductive Stage where
  | waiting
  | taken
  | ready (done : Processed)
  | opened (target : Place) (done : Processed)
  | written (stats : Stats)
  | counted
  | failing (e : RunError)
  | stopped

/-- What the workers of a batch share. -/
structure Shared where
  files : FileSystem
  totals : Stats := {}
  failed : Bool := false
  log : List Terminal.Step := []

/-- One step of the worker of an input. Only the first error of all workers is logged. -/
def advance (b : Batch) (disk : FileSystem.Disk) (folder : Path) (input : Path × InputFormat)
    (shared : Shared) : Stage → Shared × Stage
  | .waiting => (shared, if shared.failed then .stopped else .taken)
  | .taken =>
    match b.process shared.files input.1 input.2 with
    | .error e => (shared, .failing e)
    | .ok done => ({ shared with log := shared.log ++ done.log }, .ready done)
  | .ready done =>
    match createOutput ⟨shared.files, b.cwd⟩ disk (outputPath folder input.1) with
    | .error e => (shared, .failing e)
    | .ok (target, files) => ({ shared with files }, .opened target done)
  | .opened target done =>
    match writeOutput shared.files disk target done.text with
    | (files, some e) => ({ shared with files }, .failing e)
    | (files, none) => ({ shared with files }, .written done.stats)
  | .written stats =>
    let log := shared.log ++ [.increment (formatName input.2)]
    ({ shared with totals := shared.totals.add stats, log }, .counted)
  | .failing e =>
    let line : Terminal.Step := .log "error" (input.1.display ++ ": " ++ e.line)
    ({ shared with failed := true, log := shared.log ++ if shared.failed then [] else [line] }, .stopped)
  | stage => (shared, stage)

structure Work where
  shared : Shared
  tasks : List ((Path × InputFormat) × Stage)

def turn (b : Batch) (disk : FileSystem.Disk) (folder : Path) (work : Work) (number : Nat) : Work :=
  match work.tasks[number]? with
  | none => work
  | some (input, stage) =>
    let (shared, stage) := b.advance disk folder input work.shared stage
    ⟨shared, work.tasks.set number (input, stage)⟩

/-- Turns that are enough to finish some inputs, one after the other. -/
def rounds : Nat → Nat → List Nat
  | _, 0 => []
  | first, count + 1 => List.replicate 5 first ++ rounds (first + 1) count

/-- What the workers leave behind when all of them have stopped. -/
def workAll (b : Batch) (disk : FileSystem.Disk) (folder : Path) (files : FileSystem)
    (inputs : List (Path × InputFormat)) (turns : List Nat) : Shared :=
  ((turns ++ rounds 0 inputs.length).foldl (b.turn disk folder)
    ⟨{ files }, inputs.map fun input => (input, .waiting)⟩).shared

end Batch

def formats (inputs : List Path) : Except RunError (List (Path × InputFormat)) :=
  inputs.mapM fun path =>
    ((InputFormat.ofPath path).map fun format => (path, format)).mapError .unsupported

/-- The first input whose output file is the one of an input before it. Paths that differ only in
idle parts name the same file. -/
def collision? (folder : Path) : List Path → List Path → Option RunError
  | _, [] => none
  | seen, path :: rest =>
    let target := outputPath folder path
    let same (earlier : Path) : Bool :=
      (outputPath folder earlier).components = target.components
    match seen.find? same with
    | some earlier => some (.collision earlier path target)
    | none => collision? folder (seen ++ [path]) rest

def doneLine (count : Nat) (totals : Stats) : Terminal.Step :=
  .log "done" (Terminal.plural count "file" ++ ": "
    ++ Terminal.plural totals.headings "heading" ++ " classified, "
    ++ Terminal.plural totals.links "link" ++ " rewritten, "
    ++ Terminal.plural totals.paragraphs "paragraph" ++ " encoded")

def progressItems (inputs : List (Path × InputFormat)) : List (String × Nat) :=
  [("json", inputs.countP fun input => input.2 = .json),
    ("markdown", inputs.countP fun input => input.2 = .markdown)]

/-- Transforms all inputs into a folder, which is made if it is not there. -/
def runBatch (b : Batch) (disk : FileSystem.Disk) (turns : List Nat) (files : FileSystem)
    (inputs : List (Path × InputFormat)) (folder : Path) : Outcome :=
  match collision? folder [] (inputs.map Prod.fst) with
  | some e => .failed files e
  | none =>
    match files.makeFolderAll b.cwd folder with
    | .error cause => .failed (files.foldersMade b.cwd folder) (.notCreated folder cause)
    | .ok files =>
      let shared := b.workAll disk folder files inputs turns
      let log := .progress (progressItems inputs) :: shared.log
      if shared.failed then
        { files := shared.files, log := log ++ [.drop], error := some .transformFailed }
      else
        let last := doneLine inputs.length shared.totals
        { files := shared.files, log := log ++ [.finish, last] }

def printOne (b : Batch) (files : FileSystem) (path : Path) (format : InputFormat) : Outcome :=
  match b.process files path format with
  | .error e => .failed files e
  | .ok done => { files, printed := done.text ++ "\n", log := done.log }

def runTransform (w : Workspace) (config : Config) (parseYaml : String → Option Json)
    (arguments : TransformArguments) (disk : FileSystem.Disk := {}) (turns : List Nat := []) :
    Outcome :=
  if 1 < arguments.inputs.length && arguments.output.isNone then
    .failed w.files (.severalInputs arguments.inputs.length)
  else
    match formats arguments.inputs with
    | .error e => .failed w.files e
    | .ok inputs =>
      match config.pageContext w parseYaml with
      | .error cause => .failed w.files (.config cause)
      | .ok base =>
        let b : Batch :=
          ⟨w.cwd, arguments, config, base, resolvePasses arguments config.passes⟩
        match arguments.output, inputs with
        | some folder, _ => runBatch b disk turns w.files inputs folder
        | none, (path, format) :: _ => printOne b w.files path format
        | none, [] => { files := w.files }

end PageTree.Command
