import PageTree.Site.ConfigFile
import PageTree.Site.Source

/-!
What a run of the program does: the files it leaves behind, what it prints, its log, and the error
that ends it. An error has a chain of causes, the outermost first.
-/

namespace PageTree.Command

inductive RunError where
  | severalInputs (count : Nat)
  | unsupported (cause : TreeError)
  | notMarkdown (path : Path)
  | config (cause : ConfigError)
  | collision (first second target : Path)
  | unreadable (path : Path) (cause : FileError)
  | invalidInput (path : Path) (cause : TreeError)
  | notCreated (path : Path) (cause : FileError)
  | unwritten (cause : FileError)
  | transformFailed

namespace RunError

/-- The messages of the chain, as far as the program words them itself. -/
def chain : RunError → List String
  | severalInputs count => [Terminal.plural count "input" ++ " given, --output <DIR> is required"]
  | unsupported cause => [cause.message]
  | notMarkdown path => [path.display ++ " is not a markdown file"]
  | config cause => [cause.message]
  | collision first second target =>
    [first.display ++ " and " ++ second.display ++ " would both be written to "
      ++ target.display]
  | unreadable path _ => ["Failed to read " ++ path.display]
  | invalidInput path cause => ["Invalid input " ++ path.display, cause.message]
  | notCreated path _ => ["Failed to create " ++ path.display]
  | unwritten _ => []
  | transformFailed => ["Transform failed"]

def fileCause? : RunError → Option FileError
  | unreadable _ cause | notCreated _ cause | unwritten cause => some cause
  | config (.unreadable _ cause) => some cause
  | _ => none

def line (e : RunError) : String :=
  ": ".intercalate (e.chain ++ (e.fileCause?.map FileError.message).toList)

/-- The report of an error that ends a run: the error, a blank line, and its causes indented below,
numbered if there are several. -/
def report (e : RunError) : String :=
  let head (lines : List String) : String := "\n".intercalate lines ++ "\n"
  match e.chain ++ (e.fileCause?.map FileError.message).toList with
  | [] => ""
  | [only] => head ["Error: " ++ only]
  | [first, cause] => head ["Error: " ++ first, "", "Caused by:", "    " ++ cause]
  | first :: causes =>
    let numbered := causes.zipIdx.map fun (cause, i) =>
      "    " ++ Terminal.number i ++ ": " ++ cause
    head (["Error: " ++ first, "", "Caused by:"] ++ numbered)

end RunError

structure Outcome where
  files : FileSystem
  printed : String := ""
  log : List Terminal.Step := []
  error : Option RunError := none

namespace Outcome

def failed (files : FileSystem) (e : RunError) : Outcome := { files, error := some e }

def after (steps : List Terminal.Step) (outcome : Outcome) : Outcome :=
  { outcome with log := steps ++ outcome.log }

end Outcome

def readInput (w : Workspace) (path : Path) (format : InputFormat) : Except RunError Node :=
  match w.readText path with
  | .error cause => .error (.unreadable path cause)
  | .ok text => (format.readTree text).mapError (.invalidInput path)

def createOutput (w : Workspace) (disk : FileSystem.Disk) (path : Path) :
    Except RunError (Place × FileSystem) :=
  (w.files.create disk w.cwd path).mapError (.notCreated path)

def writeOutput (files : FileSystem) (disk : FileSystem.Disk) (target : Place) (text : String) :
    FileSystem × Option RunError :=
  let (files, cause) := files.write disk target (text ++ "\n")
  (files, cause.map .unwritten)

end PageTree.Command
