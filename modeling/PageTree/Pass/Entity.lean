import PageTree.Tree.Traversal
import PageTree.Typography.Entity

/-!
A paragraph with a typographic character in one of its own texts is rebuilt: every child loses its
position, and such a text is divided into texts without entities and HTML nodes for the entities.
Other children are never looked into.
-/

namespace PageTree.EntityPass

def hasEntity (node : Node) : Bool :=
  decide (node.kind = .text) && match node.value with
    | some value => Entity.occursIn value.toList
    | none => false

def ofToken (token : Entity.Token) : List Node :=
  (if token.plain = [] then [] else [Node.text (String.ofList token.plain)])
    ++ (token.entity.map fun entity => Node.html entity.encoded).toList

def splitText (value : String) : List Node :=
  (Entity.tokenize value.toList).flatMap ofToken

def rebuildChild (child : Node) : List Node :=
  if hasEntity child then splitText (child.value.getD "") else [{ child with position := none }]

def encode (node : Node) : Node × Bool :=
  match node.children with
  | none => (node, false)
  | some children =>
    if children.any hasEntity then
      ({ node with children := some (children.flatMap rebuildChild) }, true)
    else (node, false)

def step (node : Node) (count : Nat) : Node × Nat :=
  let (node, rebuilt) := encode node
  (node, if rebuilt then count + 1 else count)

def apply (tree : Node) : Node × Nat := tree.rewriteKind .paragraph step tree.height 0

end PageTree.EntityPass
