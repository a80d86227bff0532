import PageTree.Json.Reader
import PageTree.Json.Writer
import PageTree.Tree.Node

/-!
The JSON form of a document tree. The known fields of a node come first and in a fixed order, those
that are absent being left out, and all other fields follow in their own order. Reading accepts the
known fields in any place but each only once, takes `null` for an absent field, and drops names it
does not know inside positions.
-/

namespace PageTree

def Point.toJson (point : Point) : Json :=
  .obj ([("line", .int point.line), ("column", .int point.column)]
    ++ (point.offset.map fun offset => ("offset", Json.int offset)).toList)

def Position.toJson (position : Position) : Json :=
  .obj [("start", position.start.toJson), ("end", position.finish.toJson)]

def Data.toJson (data : Data) : Json :=
  .obj ((data.id.map fun id => ("id", id)).toList
    ++ (data.properties.map fun fields => ("hProperties", Json.obj fields)).toList
    ++ data.rest)

namespace Node

def textField (key : String) (value : Option String) : Json.Fields :=
  (value.map fun text => (key, Json.str text)).toList

mutual

def toJson : Node → Json
  | ⟨kind, children, value, url, label, position, data, rest⟩ =>
    .obj (("type", .str kind.tag) :: (childrenField children
      ++ textField "value" value ++ textField "url" url ++ textField "label" label
      ++ (position.map fun position => ("position", position.toJson)).toList
      ++ (data.map fun data => ("data", data.toJson)).toList
      ++ rest))

def childrenField : Option (List Node) → Json.Fields
  | none => []
  | some nodes => [("children", .arr (listToJson nodes))]

def listToJson : List Node → List Json
  | [] => []
  | node :: nodes => node.toJson :: listToJson nodes

end

def encode (node : Node) (pretty : Bool) : String := node.toJson.write pretty

end Node

namespace Json.Written

def named? (fields : List (Option String × Written)) : Option (List (String × Written)) :=
  fields.mapM fun field => field.1.map fun name => (name, field.2)

def field? (fields : List (String × Written)) (name : String) : Option (Option Written) :=
  match fields.filter fun field => field.1 == name with
  | [] => some none
  | [field] => some (some field.2)
  | _ => none

def asU64? : Written → Option Nat
  | .num n => n.asU64?
  | _ => none

def asString? : Written → Option String
  | .str s => s
  | _ => none

/-- Reads a field that is absent or `null`, or else must have the given form. -/
def optional (read : Written → Option α) : Option Written → Option (Option α)
  | none => some none
  | some .null => some none
  | some written => (read written).map some

def without (names : List String) (fields : List (String × Written)) :
    List (Option String × Written) :=
  (fields.filter fun field => !names.contains field.1).map fun field => (some field.1, field.2)

def object? (depth : Nat) : Written → Option Fields
  | .obj fields => fieldsOf (value? depth) fields []
  | _ => none

end Json.Written

open Json (Written)

namespace Point

def ofFields? (fields : List (String × Written)) : Option Point := do
  let line ← Written.field? fields "line"
  let column ← Written.field? fields "column"
  let offset ← Written.field? fields "offset"
  return ⟨← line.bind Written.asU64?, ← column.bind Written.asU64?,
    ← Written.optional Written.asU64? offset⟩

/-- A point is an object or the list of its numbers. -/
def ofWritten? : Written → Option Point
  | .obj fields => (Written.named? fields).bind ofFields?
  | .arr [line, column] => do return ⟨← line.asU64?, ← column.asU64?, none⟩
  | .arr [line, column, offset] => do
    return ⟨← line.asU64?, ← column.asU64?, ← Written.optional Written.asU64? (some offset)⟩
  | _ => none

end Point

namespace Position

def ofFields? (fields : List (String × Written)) : Option Position := do
  let start ← Written.field? fields "start"
  let finish ← Written.field? fields "end"
  return ⟨← start.bind Point.ofWritten?, ← finish.bind Point.ofWritten?⟩

/-- A position needs two free levels: one for itself and one for its points. -/
def ofWritten? (depth : Nat) : Written → Option Position
  | .obj fields => if 2 ≤ depth then (Written.named? fields).bind ofFields? else none
  | .arr [start, finish] =>
    if 2 ≤ depth then do return ⟨← Point.ofWritten? start, ← Point.ofWritten? finish⟩ else none
  | _ => none

end Position

namespace Data

def knownNames : List String := ["id", "hProperties"]

def ofFields? (depth : Nat) (fields : List (String × Written)) : Option Data := do
  let id ← Written.field? fields "id"
  let properties ← Written.field? fields "hProperties"
  return {
    id := ← Written.optional (Written.value? depth) id
    properties := ← Written.optional
      (fun written => if 0 < depth then Written.object? (depth - 1) written else none) properties
    rest := ← Written.fieldsOf (Written.value? depth) (Written.without knownNames fields) [] }

def ofWritten? : Nat → Written → Option Data
  | depth + 1, .obj fields => (Written.named? fields).bind (ofFields? depth)
  | _, _ => none

end Data

namespace Node

def knownNames : List String := ["type", "children", "value", "url", "label", "position", "data"]

def ofFields? (depth : Nat) (children? : Written → Option (List Node))
    (fields : List (String × Written)) : Option Node := do
  let kind ← Written.field? fields "type"
  let children ← Written.field? fields "children"
  let value ← Written.field? fields "value"
  let url ← Written.field? fields "url"
  let label ← Written.field? fields "label"
  let position ← Written.field? fields "position"
  let data ← Written.field? fields "data"
  return {
    kind := Kind.ofTag (← kind.bind Written.asString?)
    children := ← Written.optional children? children
    value := ← Written.optional Written.asString? value
    url := ← Written.optional Written.asString? url
    label := ← Written.optional Written.asString? label
    position := ← Written.optional (Position.ofWritten? depth) position
    data := ← Written.optional (Data.ofWritten? depth) data
    rest := ← Written.fieldsOf (Written.value? depth) (Written.without knownNames fields) [] }

mutual

def ofWritten? : Nat → Written → Option Node
  | depth + 1, .obj fields => (Written.named? fields).bind (ofFields? depth (children? depth))
  | _, _ => none

/-- The list of children takes a level of its own before that of each child. -/
def children? : Nat → Written → Option (List Node)
  | depth + 1, .arr items => items.mapM (ofWritten? depth)
  | _, _ => none

end

end Node

inductive TreeError where
  | invalidJson
  | notRoot (tag : String)
  | unknownFormat (path : String)
  deriving DecidableEq

namespace TreeError

def message : TreeError → String
  | invalidJson => "invalid mdast JSON"
  | notRoot tag => "top-level node must be `root`, found `" ++ tag ++ "`"
  | unknownFormat path => "unsupported input `" ++ path ++ "` (expected .json or .md)"

end TreeError

namespace Node

def decode (text : String) : Except TreeError Node :=
  match (Json.readDocument text.toList).bind (ofWritten? Json.depthLimit) with
  | none => .error .invalidJson
  | some node => if node.kind = .root then .ok node else .error (.notRoot node.kind.tag)

end Node

end PageTree
