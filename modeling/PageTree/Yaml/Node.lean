/-!
The nodes of a YAML document. Tags and anchors are kept; an alias refers to an anchor by number,
because the node behind the anchor may contain the alias itself.
-/

namespace PageTree.Yaml

inductive Node where
  | scalar (tag : Option (List Char)) (plain : Bool) (text : String)
  | alias (anchor : Nat)
  | sequence (tag : Option (List Char)) (items : List Node)
  | mapping (tag : Option (List Char)) (entries : List (Node × Node))
  deriving Inhabited

def Node.empty : Node := .scalar none true ""

/-- A document. `anchored` has the nodes with an anchor by the order of their first tokens, each with
the number of its anchor, and `marks` counts the scalars and aliases once and the collections
twice. -/
structure Document where
  root : Node
  anchored : Array (Nat × Node)
  marks : Nat

/-- The last node that was begun with an anchor. -/
def Document.find? (d : Document) (anchor : Nat) : Option Node :=
  (d.anchored.toList.reverse.find? (·.1 = anchor)).map (·.2)

end PageTree.Yaml
