import PageTree.Json.Basic
import PageTree.Tree.Kind

/-!
The nodes of a document tree. A node has the fields that the passes look at, and the list `rest` of
all others in the order in which they were first seen. Rendering hints are kept apart in `data`,
with the attributes of the element that the node becomes in `data.properties`.
-/

namespace PageTree

/-- A place in a source text. Lines and columns start at one, offsets at zero. -/
structure Point where
  line : Nat
  column : Nat
  offset : Option Nat
  deriving DecidableEq, Inhabited

structure Position where
  start : Point
  finish : Point
  deriving DecidableEq, Inhabited

structure Data where
  id : Option Json := none
  properties : Option Json.Fields := none
  rest : Json.Fields := []
  deriving Inhabited

structure Node where
  kind : Kind
  children : Option (List Node) := none
  value : Option String := none
  url : Option String := none
  label : Option String := none
  position : Option Position := none
  data : Option Data := none
  rest : Json.Fields := []
  deriving Inhabited

namespace Node

def ofKind (kind : Kind) : Node := { kind }

def parent (kind : Kind) (children : List Node) : Node := { kind, children := some children }

def literal (kind : Kind) (value : String) : Node := { kind, value := some value }

def root (children : List Node) : Node := parent .root children

def paragraph (children : List Node) : Node := parent .paragraph children

def text (value : String) : Node := literal .text value

def html (value : String) : Node := literal .html value

def withField (node : Node) (key : String) (value : Json) : Node :=
  { node with rest := node.rest.put key value }

def withPosition (node : Node) (position : Position) : Node :=
  { node with position := some position }

def heading (depth : Nat) (children : List Node) : Node :=
  (parent .heading children).withField "depth" (.int depth)

def link (url : String) (children : List Node) : Node :=
  { parent .link children with url := some url }

def linkReference (label : String) (children : List Node) : Node :=
  { parent .linkReference children with label := some label }

def childList (node : Node) : List Node := node.children.getD []

def depth? (node : Node) : Option Nat := (node.rest.lookup "depth").bind Json.asU64?

def property? (node : Node) (key : String) : Option Json :=
  node.data.bind fun data => data.properties.bind fun fields => fields.lookup key

def dataOrEmpty (node : Node) : Data := node.data.getD {}

/-- Sets one attribute, making `data` and its attribute list if they are missing. -/
def putProperty (node : Node) (key : String) (value : Json) : Node :=
  let data := node.dataOrEmpty
  { node with data := some { data with properties := some ((data.properties.getD []).put key value) } }

def putData (node : Node) (key : String) (value : Json) : Node :=
  let data := node.dataOrEmpty
  { node with data := some { data with rest := data.rest.put key value } }

def addChild (node : Node) (child : Node) : Node :=
  { node with children := some (node.childList ++ [child]) }

mutual

def textContent : Node → String
  | ⟨_, children, value, _, _, _, _, _⟩ => value.getD "" ++ textOfChildren children

def textOfChildren : Option (List Node) → String
  | none => ""
  | some nodes => textOfList nodes

def textOfList : List Node → String
  | [] => ""
  | node :: nodes => node.textContent ++ textOfList nodes

end

mutual

/-- The number of nodes on the longest way down from a node. -/
def height : Node → Nat
  | ⟨_, children, _, _, _, _, _, _⟩ => heightOfChildren children + 1

def heightOfChildren : Option (List Node) → Nat
  | none => 0
  | some nodes => heightOfList nodes

def heightOfList : List Node → Nat
  | [] => 0
  | node :: nodes => max node.height (heightOfList nodes)

end

end Node

end PageTree
