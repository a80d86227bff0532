import PageTree.Files.FileSystem
import PageTree.Json.Reader
import PageTree.Site.Config
import PageTree.Site.Url

/-!
Finding and loading the configuration file of a site, and the files that it names. A relative path
is looked for in the working directory and in all folders around it.
-/

namespace PageTree

inductive ConfigError where
  | unreadable (path : Path) (cause : FileError)
  | invalidToml
  | invalidJson (path : Path)
  | invalid (problems : List Config.Problem)

def ConfigError.message : ConfigError → String
  | unreadable path _ => "IO error when reading `" ++ path.display ++ "`"
  | invalidToml => "Config file parsing error"
  | invalidJson path => "invalid JSON in `" ++ path.display ++ "`"
  | invalid problems =>
    "Config validation error: " ++ "; ".intercalate (problems.map Config.Problem.message)

/-- A file system and a place in it that relative paths start at. -/
structure Workspace where
  files : FileSystem
  cwd : Place

namespace Workspace

def folderPath (place : Place) : Path := '/' :: List.intercalate ['/'] place

def readText (w : Workspace) (path : Path) : Except FileError String := w.files.readText w.cwd path

def has (w : Workspace) (path : Path) : Bool := w.files.exists? w.cwd path

def foldersAround (place : Place) : Nat → List Place
  | 0 => [[]]
  | depth + 1 => place.take (depth + 1) :: foldersAround place depth

end Workspace

namespace Config

def check (config : Config) : Except ConfigError Unit :=
  match config.problems with
  | [] => .ok ()
  | problems => .error (.invalid problems)

/-- The paths that a name may stand for, the first choice first. -/
def candidates (cwd : Place) (name : Path) : List Path :=
  if name.isAbsolute then [name]
  else (Workspace.foldersAround cwd cwd.length).map fun folder =>
    (Workspace.folderPath folder).join name

def findFile? (w : Workspace) (name : Path) : Option Path := (candidates w.cwd name).find? w.has

def warning (ignored : List String) (file : Path) : List Terminal.Step :=
  if ignored.isEmpty then []
  else
    let name := (Path.fileName? file.components).getD file
    [.log "warning" ("unknown fields in " ++ Path.display name ++ ", ignoring: "
      ++ ", ".intercalate ignored)]

/-- Loads a file. Entries that are left out are reported even if the configuration turns out to be
invalid. -/
def ofFile (w : Workspace) (file : Path) : Except ConfigError Config × List Terminal.Step :=
  match w.readText file with
  | .error cause => (.error (.unreadable file cause), [])
  | .ok text =>
    match parse? text with
    | none => (.error .invalidToml, [])
    | some (config, ignored) =>
      let config := { config with file := some file, root := file.parent?.getD [] }
      (config.check.map fun _ => config, warning ignored file)

/-- Loads the file that a name stands for; without one the defaults hold. -/
def load (w : Workspace) (name : Path) : Except ConfigError Config × List Terminal.Step :=
  match findFile? w name with
  | some file => ofFile w file
  | none => (.ok { root := Workspace.folderPath w.cwd }, [])

def registryPaths (config : Config) : List Path :=
  (config.site.pages.toList ++ config.site.nav.toList).map config.root.join

def readJson (config : Config) (w : Workspace) (path : Path) : Except ConfigError Json :=
  let path := config.root.join path
  match w.readText path with
  | .error cause => .error (.unreadable path cause)
  | .ok text =>
    match Json.parse? text with
    | some value => .ok value
    | none => .error (.invalidJson path)

def loadNav (config : Config) (w : Workspace) : Except ConfigError (Option Json) :=
  match config.site.nav with
  | none => .ok none
  | some path => (config.readJson w path).map some

def loadPages (config : Config) (w : Workspace) : Except ConfigError (Option Json.Fields) :=
  match config.site.pages with
  | none => .ok none
  | some path =>
    match config.readJson w path with
    | .error e => .error e
    | .ok (.obj fields) => .ok (some fields)
    | .ok _ => .error (.invalidJson (config.root.join path))

def pageContext (config : Config) (w : Workspace) (parseYaml : String → Option Json) :
    Except ConfigError PageContext := do
  let pages ← config.loadPages w
  let nav ← config.loadNav w
  return {
    selfPath := config.page.selfPath.map Path.display
    isDocs := config.page.docs
    parents := config.page.parents
    pages
    nav
    relativeUrl := some fun url id => relativeUrl url id config.site.index
    parseYaml := some parseYaml
    globalProp := config.site.global }

end Config

end PageTree
