import PageTree.Yaml.NodeReader
import PageTree.Yaml.Resolution

/-!
Reads a YAML text as a JSON value. Keys are the texts of scalars, whatever these mean. Aliases are
followed while the value is built; their number and the depth of the value are limited, so that a
node that contains itself is refused.
-/

namespace PageTree.Yaml

/-- A value may hold this many collections within each other. -/
def depthLimit : Nat := 128

/-- How many aliases may be followed for each scalar, alias or end of a collection. -/
def aliasesPerMark : Nat := 100

abbrev Walk := StateT Nat Option

namespace Document

/-- The node that an alias stands for. It is never an alias, which cannot have an anchor. -/
def follow (d : Document) (node : Node) : Walk Node := do
  match node with
  | .alias anchor =>
    match ← get with
    | 0 => failure
    | left + 1 =>
      set left
      d.find? anchor
  | node => return node

def keyText (d : Document) (node : Node) : Walk String := do
  match ← d.follow node with
  | .scalar _ _ text => return text
  | _ => failure

/-- Tags of the document's own are refused on collections as well; other tags do not matter there. -/
def isOwnTag (tag : Option (List Char)) : Bool := tag.any fun tag => tag.head? = some '!'

def value (d : Document) : Nat → Node → Walk Json
  | depth, node => do
    match ← d.follow node, depth with
    | .scalar tag plain text, _ => scalarValue? tag plain text
    | .sequence tag items, depth + 1 =>
      if isOwnTag tag then failure
      return .arr (← items.mapM fun item => d.value depth item)
    | .mapping tag entries, depth + 1 =>
      if isOwnTag tag then failure
      let pairs ← entries.mapM fun (key, item) => do
        return (← d.keyText key, ← d.value depth item)
      return .obj (Json.Fields.ofPairs pairs)
    | _, _ => failure

end Document

def parse? (text : String) : Option Json := do
  if !text.toList.all isAllowed then none
  let d ← document? text
  let (value, _) ← (d.value depthLimit d.root).run (aliasesPerMark * d.marks)
  return value

end PageTree.Yaml
