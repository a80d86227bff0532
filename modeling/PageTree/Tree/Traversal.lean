import PageTree.Tree.Node

/-!
Walking a tree in document order. A rewriting walk gives each node of a kind to a function before
it goes on to the children that the function left, and carries a state along. Its depth bounds the
number of levels it goes down; a walk whose depth is at least the height of every tree it meets
reaches all nodes.
-/

namespace PageTree.Node

def mapState {σ : Type} (f : Node → σ → Node × σ) : List Node → σ → List Node × σ
  | [], s => ([], s)
  | node :: nodes, s =>
    let (node, s) := f node s
    let (nodes, s) := mapState f nodes s
    (node :: nodes, s)

def mapChildren {σ : Type} (f : Node → σ → Node × σ) (node : Node) (s : σ) : Node × σ :=
  match node.children with
  | none => (node, s)
  | some nodes =>
    let (nodes, s) := mapState f nodes s
    ({ node with children := some nodes }, s)

/-- Applies `f` to the nodes of a kind, each before its children. -/
def rewriteKind {σ : Type} (kind : Kind) (f : Node → σ → Node × σ) :
    Nat → Node → σ → Node × σ
  | 0, node, s => (node, s)
  | depth + 1, node, s =>
    let (node, s) := if node.kind = kind then f node s else (node, s)
    mapChildren (rewriteKind kind f depth) node s

mutual

def ofKindIn (kind : Kind) : Node → List Node
  | ⟨k, children, value, url, label, position, data, rest⟩ =>
    (if k = kind then [⟨k, children, value, url, label, position, data, rest⟩] else [])
      ++ ofKindInChildren kind children

def ofKindInChildren (kind : Kind) : Option (List Node) → List Node
  | none => []
  | some nodes => ofKindInList kind nodes

def ofKindInList (kind : Kind) : List Node → List Node
  | [] => []
  | node :: nodes => ofKindIn kind node ++ ofKindInList kind nodes

end

def countKind (kind : Kind) (node : Node) : Nat := (ofKindIn kind node).length

/-- The node that a list of child indexes leads to. -/
def at? : List Nat → Node → Option Node
  | [], node => some node
  | i :: path, node => (node.childList[i]?).bind (at? path)

def updateAt? {α : Type} (f : Node → Node × α) : List Nat → Node → Option (Node × α)
  | [], node => some (f node)
  | i :: path, node => do
    let nodes ← node.children
    let child ← nodes[i]?
    let (child, result) ← updateAt? f path child
    return ({ node with children := some (nodes.set i child) }, result)

end PageTree.Node
