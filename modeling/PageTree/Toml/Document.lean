import PageTree.Toml.Basic

/-!
Putting the statements of a document together. A table may be named by a header, come into being on
the way to another one, or be made by a dotted key; only a table that no header and no dotted key
has made can still get a header of its own.
-/

namespace PageTree.Toml

inductive Origin where
  | header
  | implied
  | dotted
  deriving DecidableEq

inductive Entry where
  | value (value : Toml)
  | table (origin : Origin) (entries : List (String × Entry))
  | tables (elements : List (List (String × Entry)))

abbrev Entries := List (String × Entry)

namespace Entries

def replace (entries : Entries) (key : String) (entry : Entry) : Entries :=
  entries.map fun (k, e) => if k = key then (k, entry) else (k, e)

def remove (entries : Entries) (key : String) : Entries :=
  entries.filter fun (k, _) => k ≠ key

/-- Changes the table at the end of a path; tables that are missing on the way are made. An array of
tables stands for its last element. A dotted key does not reach into a table with a header. -/
def update (made : Origin) (change : Origin → Entries → Option Entries) :
    List String → Origin → Entries → Option Entries
  | [], origin, entries => change origin entries
  | key :: path, _, entries =>
    match entries.lookup key with
    | none => do
      let inner ← update made change path made []
      return entries ++ [(key, .table made inner)]
    | some (.value _) => none
    | some (.tables elements) => do
      let inner ← update made change path .header (elements.getLast?.getD [])
      return entries.replace key (.tables (elements.dropLast ++ [inner]))
    | some (.table origin inner) =>
      if made = .dotted && origin = .header then none
      else do
        let inner ← update made change path origin inner
        return entries.replace key (.table origin inner)

/-- Sets a key that is not there yet. Where the key is dotted, only dotted keys make the tables. -/
def assign (entries : Entries) (path : List String) (key : String) (value : Toml) :
    Option Entries :=
  let set (origin : Origin) (entries : Entries) : Option Entries :=
    if (origin = .dotted) = path.isEmpty then none
    else if (entries.lookup key).isSome then none
    else some (entries ++ [(key, .value value)])
  update .dotted set path .header entries

end Entries

structure Assignment where
  path : List String
  key : String
  value : Toml

def Entries.assignAll (entries : Entries) (assignments : List Assignment) : Option Entries :=
  assignments.foldlM (fun entries a => entries.assign a.path a.key a.value) entries

inductive Header where
  | table (path : List String) (key : String)
  | element (path : List String) (key : String)

structure Section where
  header : Header
  assignments : List Assignment

/-- A table that has come into being on the way to another one moves to the end when its header
comes. -/
def Entries.addSection (entries : Entries) (s : Section) : Option Entries :=
  match s.header with
  | .table path key =>
    let add (_ : Origin) (entries : Entries) : Option Entries := do
      let start : Entries ← match entries.lookup key with
        | none => some []
        | some (.table .implied inner) => some inner
        | some _ => none
      let inner ← start.assignAll s.assignments
      return entries.remove key ++ [(key, .table .header inner)]
    update .implied add path .header entries
  | .element path key =>
    let add (_ : Origin) (entries : Entries) : Option Entries := do
      let inner ← Entries.assignAll [] s.assignments
      match entries.lookup key with
      | none => return entries ++ [(key, .tables [inner])]
      | some (.tables elements) => return entries.replace key (.tables (elements ++ [inner]))
      | some _ => none
    update .implied add path .header entries

mutual

def Entry.toToml : Entry → Toml
  | .value v => v
  | .table _ entries => .table (entriesToToml entries)
  | .tables elements => .array (elementsToToml elements)

def entriesToToml : List (String × Entry) → Table
  | [] => []
  | (key, entry) :: entries => (key, entry.toToml) :: entriesToToml entries

def elementsToToml : List (List (String × Entry)) → List Toml
  | [] => []
  | entries :: elements => .table (entriesToToml entries) :: elementsToToml elements

end

structure Document where
  top : List Assignment := []
  sections : List Section := []

def Document.table? (document : Document) : Option Table := do
  let entries ← Entries.assignAll [] document.top
  let entries ← document.sections.foldlM Entries.addSection entries
  return entriesToToml entries

end PageTree.Toml
