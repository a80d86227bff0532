import PageTree.Path

/-!
A file system as a value. Every place is a list of names from the root, and holds a folder, a file or
nothing. A path is followed name by name; each folder on the way must be there. There are no symbolic
links. That one file has several names is told by the disk, and so is which files cannot be opened for
writing and which writes break off; the disk of ordinary runs has nothing to tell.
-/

namespace PageTree

/-- The names from the root down to a file or folder. -/
abbrev Place := List (List Char)

/-- A file holds a text, or bytes that are no text. -/
inductive FileItem where
  | folder
  | file (content : Option String)
  deriving DecidableEq

inductive FileError where
  | notFound
  | alreadyExists
  | notFolder
  | isFolder
  | notText
  | badName
  | notAllowed
  | noSpace
  | broken
  deriving DecidableEq

def FileError.message : FileError → String
  | notFound => "No such file or directory (os error 2)"
  | alreadyExists => "File exists (os error 17)"
  | notFolder => "Not a directory (os error 20)"
  | isFolder => "Is a directory (os error 21)"
  | notText => "stream did not contain valid UTF-8"
  | badName => "file name contained an unexpected NUL byte"
  | notAllowed => "Permission denied (os error 13)"
  | noSpace => "No space left on device (os error 28)"
  | broken => "Input/output error (os error 5)"

structure FileSystem where
  items : List (Place × FileItem)

namespace FileSystem

/-- What stands at a place. The root is always a folder. -/
def find? (files : FileSystem) (place : Place) : Option FileItem :=
  if place = [] then some .folder else files.items.lookup place

def put (files : FileSystem) (place : Place) (item : FileItem) : FileSystem :=
  ⟨files.items.filter (fun entry => entry.1 ≠ place) ++ [(place, item)]⟩

theorem find?_put_self (files : FileSystem) {place : Place} (item : FileItem) (h : place ≠ []) :
    (files.put place item).find? place = some item := by
  have absent : (files.items.filter (fun entry => entry.1 ≠ place)).lookup place = none := by
    rw [List.lookup_eq_none_iff]
    intro entry member
    have := (List.mem_filter.1 member).2
    simp only [decide_eq_true_eq] at this
    simpa using fun same => this same.symm
  unfold find? put
  rw [if_neg h, List.lookup_append, absent]
  simp

def parts (path : Path) : List (List Char) := (path.splitOn '/').filter (· ≠ [])

/-- Follows the parts of a path from a place. The last part may name what is not there. -/
def follow (files : FileSystem) : Place → List (List Char) → Except FileError Place
  | place, [] => .ok place
  | place, part :: rest =>
    match files.find? place with
    | none => .error .notFound
    | some (.file _) => .error .notFolder
    | some .folder =>
      if part = ['.'] then follow files place rest
      else if part = ['.', '.'] then follow files place.dropLast rest
      else follow files (place ++ [part]) rest

def locate (files : FileSystem) (cwd : Place) (path : Path) : Except FileError Place :=
  if path.contains (Char.ofNat 0) then .error .badName
  else if path = [] then .error .notFound
  else files.follow (if path.isAbsolute then [] else cwd) (parts path)

def namesFolder (path : Path) : Bool := path.getLast? = some '/'

def lookup (files : FileSystem) (cwd : Place) (path : Path) : Except FileError FileItem := do
  let place ← files.locate cwd path
  match files.find? place with
  | none => .error .notFound
  | some (.file content) => if namesFolder path then .error .notFolder else .ok (.file content)
  | some .folder => .ok .folder

def exists? (files : FileSystem) (cwd : Place) (path : Path) : Bool :=
  (files.lookup cwd path).isOk

def isFolder (files : FileSystem) (cwd : Place) (path : Path) : Bool :=
  match files.lookup cwd path with
  | .ok .folder => true
  | _ => false

def readText (files : FileSystem) (cwd : Place) (path : Path) : Except FileError String := do
  match ← files.lookup cwd path with
  | .file (some text) => .ok text
  | .file none => .error .notText
  | .folder => .error .isFolder

/-- What is not in the files: the names that one file has, the files that may not be opened for writing,
and the writes that break off, each with the bytes that it has written by then. -/
structure Disk where
  linked : List (List Place) := []
  refuses? : Place → Option FileError := fun _ => none
  breaksOff? : Place → String → Option (Nat × FileError) := fun _ _ => none

/-- The first bytes of a text, which are no text if they end inside a character. -/
def firstBytes : Nat → List Char → Option (List Char)
  | 0, _ | _, [] => some []
  | count + 1, c :: cs =>
    if c.utf8Size ≤ count + 1 then (firstBytes (count + 1 - c.utf8Size) cs).map (c :: ·) else none

def Disk.names (disk : Disk) (place : Place) : List Place :=
  (disk.linked.find? (·.contains place)).getD [place]

/-- Changes the content of a file, under all its names. -/
def hold (files : FileSystem) (disk : Disk) (place : Place) (content : Option String) : FileSystem :=
  (disk.names place).foldl (fun files name => files.put name (.file content)) files

def create (files : FileSystem) (disk : Disk) (cwd : Place) (path : Path) :
    Except FileError (Place × FileSystem) := do
  let place ← files.locate cwd path
  match files.find? place with
  | some .folder => .error .isFolder
  | found =>
    if namesFolder path then .error (if found.isSome then .notFolder else .isFolder)
    else
      match disk.refuses? place with
      | some cause => .error cause
      | none => .ok (place, files.hold disk place (some ""))

def write (files : FileSystem) (disk : Disk) (place : Place) (text : String) :
    FileSystem × Option FileError :=
  match disk.breaksOff? place text with
  | none => (files.hold disk place (some text), none)
  | some (count, cause) =>
    (files.hold disk place ((firstBytes count text.toList).map String.ofList), some cause)

def makeFolder (files : FileSystem) (cwd : Place) (path : Path) : Except FileError FileSystem := do
  let place ← files.locate cwd path
  match files.find? place with
  | some _ => .error .alreadyExists
  | none => .ok (files.put place .folder)

/-- Makes a folder with all folders on the way to it. One that is there already will do. What has been
made stays, also where the next one cannot be made. -/
def makeFolders (cwd : Place) : Nat → FileSystem → Path → FileSystem × Option FileError
  | 0, files, _ => (files, none)
  | steps + 1, files, path =>
    let orThere (files : FileSystem) (e : FileError) : FileSystem × Option FileError :=
      if files.isFolder cwd path then (files, none) else (files, some e)
    if path = [] then (files, none)
    else
      match files.makeFolder cwd path with
      | .ok files => (files, none)
      | .error .notFound =>
        match path.parent? with
        | none => (files, some .notFound)
        | some parent =>
          match makeFolders cwd steps files parent with
          | (files, some e) => (files, some e)
          | (files, none) =>
            match files.makeFolder cwd path with
            | .ok files => (files, none)
            | .error e => orThere files e
      | .error e => orThere files e

def makeFolderAll (files : FileSystem) (cwd : Place) (path : Path) : Except FileError FileSystem :=
  match makeFolders cwd (path.length + 1) files path with
  | (files, none) => .ok files
  | (_, some e) => .error e

def foldersMade (files : FileSystem) (cwd : Place) (path : Path) : FileSystem :=
  (makeFolders cwd (path.length + 1) files path).1

end FileSystem

end PageTree
