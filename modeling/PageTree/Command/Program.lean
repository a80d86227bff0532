import PageTree.Command.Transform
import PageTree.Yaml.Reader

/-!
The whole program: it loads the configuration and carries out the command, which transforms files or
converts a Markdown file to a tree that is printed or written into a file.
-/

namespace PageTree.Command

def runConvert (w : Workspace) (arguments : ConvertArguments) (disk : FileSystem.Disk := {}) :
    Outcome :=
  match InputFormat.ofPath arguments.input with
  | .error cause => .failed w.files (.unsupported cause)
  | .ok .json => .failed w.files (.notMarkdown arguments.input)
  | .ok .markdown =>
    match readInput w arguments.input .markdown with
    | .error e => .failed w.files e
    | .ok tree =>
      let text := tree.encode arguments.pretty
      match arguments.output with
      | none => { files := w.files, printed := text ++ "\n" }
      | some path =>
        match createOutput w disk path with
        | .error e => .failed w.files e
        | .ok (target, files) =>
          match writeOutput files disk target text with
          | (files, some e) => .failed files e
          | (files, none) => { files, log := [.log "convert" ("wrote " ++ path.display)] }

def runAction (w : Workspace) (config : Config) : Action → Outcome
  | .transform arguments => runTransform w config Yaml.parse? arguments
  | .convert arguments => runConvert w arguments

def runInvocation (w : Workspace) (invocation : Invocation) : Outcome :=
  let (loaded, steps) := Config.load w invocation.config
  let outcome : Outcome := match loaded with
    | .error cause => .failed w.files (.config cause)
    | .ok config => runAction w config invocation.action
  outcome.after (.verbose invocation.verbose :: steps)

def Outcome.logText (outcome : Outcome) (coloured : Bool := true) : String :=
  (Terminal.Log.run { coloured } outcome.log).2

end PageTree.Command
