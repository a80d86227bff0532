import PageTree.Tree.Traversal

/-!
Headings lose their identifiers. A heading that begins with a reference followed by more content
loses the reference, whose label chooses the display class; a label outside `1` to `6` leaves an
explicit null.
-/

namespace PageTree.HeadingPass

def displayClass? (label : String) : Option String :=
  if ["1", "2", "3", "4", "5", "6"].contains label then some ("display-" ++ label) else none

def clearIds (node : Node) : Node :=
  let data := node.dataOrEmpty
  let properties := (data.properties.getD []).remove "id"
  { node with data := some { data with id := none, properties := some properties } }

def classValue (label : Option String) : Json :=
  match label.bind displayClass? with
  | some name => .str name
  | none => .null

/-- The reference at the front of a heading with more content, and that content. -/
def leadingReference? (node : Node) : Option (Node × List Node) :=
  match node.children with
  | some (first :: second :: others) =>
    if first.kind = .linkReference then some (first, second :: others) else none
  | _ => none

def normalize (node : Node) : Node × Bool :=
  let cleared := clearIds node
  match leadingReference? node with
  | some (reference, others) =>
    let shortened := { cleared with children := some others }
    (shortened.putProperty "class" (classValue reference.label), true)
  | none => (cleared, false)

def step (node : Node) (count : Nat) : Node × Nat :=
  let (node, classed) := normalize node
  (node, if classed then count + 1 else count)

def apply (tree : Node) : Node × Nat := tree.rewriteKind .heading step tree.height 0

end PageTree.HeadingPass
