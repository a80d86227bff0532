import PageTree.Pass.Transformer
import PageTree.Path
import PageTree.Text.Punctuation
import PageTree.Toml.Reader

/-!
The configuration of a site. A document has three sections, of which every entry may be missing;
entries that no section knows are left out, and reported where a report is asked for. Nothing inside
the global value of a site is looked at.
-/

namespace PageTree

structure PageSection where
  id : Option String := none
  selfPath : Option Path := none
  docs : Bool := false
  parents : List String := []

structure SiteSection where
  content : Path := "content".toList
  index : String := "index"
  pages : Option Path := none
  nav : Option Path := none
  global : Option Json := none

/-- A configuration, with the file that it was read from and the folder that its paths start at. -/
structure Config where
  file : Option Path := none
  root : Path := []
  page : PageSection := {}
  site : SiteSection := {}
  passes : Passes := {}

namespace Config

/-- The entries of a section. An array gives its items to the known keys in order. A moment counts as
a table with one entry. -/
def sectionEntries? (keys : List String) : Toml → Option Toml.Table
  | .table entries => some entries
  | .array items => some (keys.zip items)
  | .moment moment => some [(Toml.momentField, .text moment.text)]
  | _ => none

def asText? : Toml → Option String
  | .text value => some value
  | _ => none

def asBool? : Toml → Option Bool
  | .boolean value => some value
  | _ => none

def asPath? (value : Toml) : Option Path := (asText? value).map Path.ofText

def asTexts? : Toml → Option (List String)
  | .array items => items.mapM asText?
  | _ => none

/-- The names from the top of a document down to an entry. -/
abbrev Trail := List String

def dotted (trail : Trail) : String := ".".intercalate trail

/-- A place in a record for the value under a name. The value comes with the trails inside it that are
left out. -/
structure Field (σ : Type) where
  name : String
  Value : Type
  read : Toml → Option (Value × List Trail)
  get : σ → Value
  set : Value → σ → σ

def Field.whole (name : String) (read : Toml → Option α) (get : σ → α) (set : α → σ → σ) : Field σ :=
  ⟨name, α, fun value => (read value).map fun value => (value, []), get, set⟩

def pageFields : List (Field PageSection) := [
  .whole "id" (fun v => (asText? v).map some) PageSection.id fun v page => { page with id := v },
  .whole "self" (fun v => (asPath? v).map some) PageSection.selfPath
    fun v page => { page with selfPath := v },
  .whole "docs" asBool? PageSection.docs fun v page => { page with docs := v },
  .whole "parents" asTexts? PageSection.parents fun v page => { page with parents := v }]

def siteFields : List (Field SiteSection) := [
  .whole "content" asPath? SiteSection.content fun v site => { site with content := v },
  .whole "index" asText? SiteSection.index fun v site => { site with index := v },
  .whole "pages" (fun v => (asPath? v).map some) SiteSection.pages
    fun v site => { site with pages := v },
  .whole "nav" (fun v => (asPath? v).map some) SiteSection.nav fun v site => { site with nav := v },
  .whole "global" (fun v => some (some v.toJson)) SiteSection.global
    fun v site => { site with global := v }]

def passFields : List (Field Passes) := [
  .whole "heading" asBool? Passes.heading fun v passes => { passes with heading := v },
  .whole "link" asBool? Passes.link fun v passes => { passes with link := v },
  .whole "entity" asBool? Passes.entity fun v passes => { passes with entity := v }]

/-- Reads each field from the entry under its name. A field without an entry keeps what it has; a value
of another shape is an error. -/
def readFields (entries : Toml.Table) : List (Field σ) → σ → Option σ
  | [], record => some record
  | field :: fields, record =>
    match entries.lookup field.name with
    | none => readFields entries fields record
    | some value => do
      let (content, _) ← field.read value
      readFields entries fields (field.set content record)

def readSection (table : Toml.Table) (name : String) (fields : List (Field σ)) (start : σ) : Option σ :=
  match table.lookup name with
  | none => some start
  | some value => do
    let entries ← sectionEntries? (fields.map Field.name) value
    readFields entries fields start

def ofTable? (table : Toml.Table) : Option Config := do
  return {
    page := ← readSection table "page" pageFields {}
    site := ← readSection table "site" siteFields {}
    passes := ← readSection table "passes" passFields {} }

def ofText? (text : String) : Option Config := (Toml.parse? text).bind ofTable?

/-- Reads entries into a record. An entry without a field is left out. -/
def readEntries (fields : List (Field σ)) : Toml.Table → σ → Option (σ × List Trail)
  | [], record => some (record, [])
  | (key, value) :: entries, record =>
    match fields.find? fun field => field.name = key with
    | none => do
      let (record, others) ← readEntries fields entries record
      return (record, [key] :: others)
    | some field => do
      let (value, inside) ← field.read value
      let (record, others) ← readEntries fields entries (field.set value record)
      return (record, inside.map (key :: ·) ++ others)

def Field.ofSection (name : String) (fields : List (Field α)) (start : α) (get : σ → α)
    (set : α → σ → σ) : Field σ :=
  let read (value : Toml) := do
    let entries ← sectionEntries? (fields.map Field.name) value
    readEntries fields entries start
  ⟨name, α, read, get, set⟩

def fields : List (Field Config) := [
  .ofSection "page" pageFields {} Config.page fun v config => { config with page := v },
  .ofSection "site" siteFields {} Config.site fun v config => { config with site := v },
  .ofSection "passes" passFields {} Config.passes fun v config => { config with passes := v }]

/-- The configuration that a text describes, and the dotted names of what it leaves out. -/
def parse? (text : String) : Option (Config × List String) := do
  let table ← Toml.parse? text
  let (config, trails) ← readEntries fields table {}
  return (config, trails.map dotted)

inductive Problem where
  | emptyIndex
  | emptyContent
  | emptyParent (position : Nat)
  deriving DecidableEq

def Problem.message : Problem → String
  | emptyIndex => "[site] index must not be empty"
  | emptyContent => "[site] content must not be empty"
  | emptyParent position =>
    "[page] parents[" ++ Terminal.number position ++ "] must not be empty"

def isBlankText (text : String) : Bool := text.toList.all Unicode.isBlank

/-- What would make every page misbehave. Of several blank parents the first one is named. -/
def problems (config : Config) : List Problem :=
  (if isBlankText config.site.index then [.emptyIndex] else [])
    ++ (if config.site.content = [] then [.emptyContent] else [])
    ++ ((config.page.parents.findIdx? isBlankText).map Problem.emptyParent).toList

def contentFolder (config : Config) : Path := config.root.join config.site.content

def pathJson (path : Path) : Json := .str path.display

def optional (encode : α → Json) : Option α → Json
  | some value => encode value
  | none => .null

def PageSection.toJson (page : PageSection) : Json :=
  .obj [("id", optional .str page.id), ("self", optional pathJson page.selfPath),
    ("docs", .bool page.docs), ("parents", .arr (page.parents.map .str))]

def SiteSection.toJson (site : SiteSection) : Json :=
  .obj [("content", pathJson site.content), ("index", .str site.index),
    ("pages", optional pathJson site.pages), ("nav", optional pathJson site.nav),
    ("global", optional id site.global)]

def Passes.toJson (passes : Passes) : Json :=
  .obj [("heading", .bool passes.heading), ("link", .bool passes.link),
    ("entity", .bool passes.entity)]

def toJson (config : Config) : Json :=
  .obj [("page", PageSection.toJson config.page), ("site", SiteSection.toJson config.site),
    ("passes", Passes.toJson config.passes)]

end Config

end PageTree
