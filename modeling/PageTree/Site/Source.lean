import PageTree.Markdown.Reading
import PageTree.Path
import PageTree.Text.Ascii
import PageTree.Tree.Encoding

/-!
Source files: how the extension of a path tells its format, and where the tree made from it is
written.
-/

namespace PageTree

inductive InputFormat where
  | json
  | markdown
  deriving DecidableEq

namespace InputFormat

def ofPath (path : Path) : Except TreeError InputFormat :=
  match path.extension?.map (·.map Ascii.lower) with
  | some extension =>
    if extension = "json".toList then .ok .json
    else if extension = "md".toList ∨ extension = "markdown".toList then .ok .markdown
    else .error (.unknownFormat path.display)
  | none => .error (.unknownFormat path.display)

/-- The tree of a text in the given format. Markdown is read with all extensions, and every text is
Markdown. -/
def readTree (format : InputFormat) (text : String) : Except TreeError Node :=
  match format with
  | .json => Node.decode text
  | .markdown => .ok (Markdown.readTree .all text)

end InputFormat

/-- The file that holds the tree of `input` in the folder `dir`. Its name is a text, whatever the name
of the input is. -/
def outputPath (dir input : Path) : Path :=
  dir.join (Path.ofText (Path.display (input.stem?.getD "tree".toList) ++ ".json"))

end PageTree
