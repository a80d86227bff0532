import PageTree.Path
import PageTree.Site.Url

/-!
The identifier of the page that a source file becomes: its path below the content folder without
the extension, where a last name `index` stands for the folder it lies in.
-/

namespace PageTree.PageId

open PageTree.Path (Component)

def names (components : List Component) : List (List Char) :=
  components.filterMap fun
    | .name text => some text
    | _ => none

def dropIndex (parts : List (List Char)) : List (List Char) :=
  if parts.getLast? = some "index".toList then parts.dropLast else parts

def ofBelow (below : List Component) (index : List Char) : List Char :=
  match dropIndex (names (Path.dropExtension below)) with
  | [] => index
  | parts => Url.joinSegments parts

def ofComponents (path content : List Component) (index : List Char) : List Char :=
  ofBelow ((Path.stripBase? path content).getD path) index

def ofPath (path content : Path) (index : List Char) : List Char :=
  ofComponents path.components content.components index

end PageTree.PageId
