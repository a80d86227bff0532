import PageTree.Proofs.Tree.Canonical

/-!
What it means that the fields of an object read as a node, one statement for each field. Reading
succeeds exactly when all of them hold, so that facts about reading never go through the reader
itself.
-/

namespace PageTree

open Json (Written)
open Json.Written (field? named? without fieldsOf value? asString? asU64? object?)

namespace Json.Written

def unnamed (fields : List (String × Written)) : List (Option String × Written) :=
  fields.map fun field => (some field.1, field.2)

theorem named?_eq_some_iff {fields : List (Option String × Written)}
    {named : List (String × Written)} : named? fields = some named ↔ fields = unnamed named := by
  rw [named?, mapM_eq_some_iff]
  constructor
  · intro each
    induction each with
    | nil => rfl
    | @cons field pair fields pairs head tail ih =>
      obtain ⟨name, value⟩ := field
      obtain ⟨key, hasName, rfl⟩ := Option.map_eq_some_iff.mp head
      rw [unnamed, List.map_cons, ih]
      exact congrArg (· :: unnamed pairs) (Prod.ext hasName rfl)
  · intro same
    subst same
    induction named with
    | nil => exact .nil
    | cons field named ih => exact .cons rfl ih

/-- A field that is missing or `null`, or else is read in a given way. -/
def ReadsAs {α : Type} (fields : List (String × Written)) (name : String)
    (read : Written → Option α) (result : Option α) : Prop :=
  ∃ found, field? fields name = some found ∧ Written.optional read found = some result

/-- The attributes in `data` take one level themselves. -/
def properties? : Nat → Written → Option Fields
  | limit + 1, .obj fields => fieldsOf (value? limit) fields []
  | _, _ => none

theorem properties?_eq (limit : Nat) :
    (fun written => if 0 < limit then object? (limit - 1) written else none) =
      properties? limit := by
  funext written
  cases limit with
  | zero => cases written <;> rfl
  | succ limit => cases written <;> rfl

theorem properties?_eq_some_iff {limit : Nat} {written : Written} {result : Fields} :
    properties? limit written = some result ↔ ∃ below members, limit = below + 1 ∧
      written = .obj members ∧ fieldsOf (value? below) members [] = some result := by
  constructor
  · intro read
    cases limit with
    | zero => exact absurd read (by cases written <;> simp [properties?])
    | succ below =>
      cases written with
      | obj members => exact ⟨below, members, rfl, rfl, read⟩
      | _ => exact absurd read (by simp [properties?])
  · intro read
    obtain ⟨below, members, rfl, rfl, done⟩ := read
    exact done

end Json.Written

open Json.Written (unnamed named?_eq_some_iff ReadsAs properties? properties?_eq)

namespace Point

structure Reads (line column : Written) (offset : Option Written) (point : Point) : Prop where
  line : asU64? line = some point.line
  column : asU64? column = some point.column
  offset : Written.optional asU64? offset = some point.offset

theorem ofFields?_eq_some_iff {fields : List (String × Written)} {point : Point} :
    ofFields? fields = some point ↔ ∃ line column offset, field? fields "line" = some (some line) ∧
      field? fields "column" = some (some column) ∧ field? fields "offset" = some offset ∧
      Reads line column offset point := by
  simp only [ofFields?, Option.bind_eq_bind, Option.bind_eq_some_iff, Option.pure_def,
    Option.some.injEq]
  constructor
  · intro read
    obtain ⟨line?, hasLine, column?, hasColumn, offset, hasOffset, l, ⟨line, rfl, readLine⟩, c,
      ⟨column, rfl, readColumn⟩, o, readOffset, rfl⟩ := read
    exact ⟨line, column, offset, hasLine, hasColumn, hasOffset, readLine, readColumn, readOffset⟩
  · intro parts
    obtain ⟨line, column, offset, hasLine, hasColumn, hasOffset, reads⟩ := parts
    exact ⟨_, hasLine, _, hasColumn, _, hasOffset, _, ⟨_, rfl, reads.line⟩, _,
      ⟨_, rfl, reads.column⟩, _, reads.offset, rfl⟩

end Point

namespace Position

theorem ofFields?_eq_some_iff {fields : List (String × Written)} {position : Position} :
    ofFields? fields = some position ↔ ∃ start finish, field? fields "start" = some (some start) ∧
      field? fields "end" = some (some finish) ∧ Point.ofWritten? start = some position.start ∧
      Point.ofWritten? finish = some position.finish := by
  simp only [ofFields?, Option.bind_eq_bind, Option.bind_eq_some_iff, Option.pure_def,
    Option.some.injEq]
  constructor
  · intro read
    obtain ⟨start?, hasStart, finish?, hasFinish, s, ⟨start, rfl, readStart⟩, f,
      ⟨finish, rfl, readFinish⟩, rfl⟩ := read
    exact ⟨start, finish, hasStart, hasFinish, readStart, readFinish⟩
  · intro parts
    obtain ⟨start, finish, hasStart, hasFinish, readStart, readFinish⟩ := parts
    exact ⟨_, hasStart, _, hasFinish, _, ⟨_, rfl, readStart⟩, _, ⟨_, rfl, readFinish⟩, rfl⟩

end Position

namespace Data

structure Reads (limit : Nat) (fields : List (String × Written)) (data : Data) : Prop where
  id : ReadsAs fields "id" (value? limit) data.id
  properties : ReadsAs fields "hProperties" (properties? limit) data.properties
  rest : fieldsOf (value? limit) (without knownNames fields) [] = some data.rest

theorem ofFields?_eq_some_iff {limit : Nat} {fields : List (String × Written)} {data : Data} :
    ofFields? limit fields = some data ↔ Reads limit fields data := by
  simp only [ofFields?, properties?_eq, Option.bind_eq_bind, Option.bind_eq_some_iff,
    Option.pure_def, Option.some.injEq]
  constructor
  · intro read
    obtain ⟨id, hasId, properties, hasProperties, i, readId, p, readProperties, r, readRest,
      rfl⟩ := read
    exact ⟨⟨id, hasId, readId⟩, ⟨properties, hasProperties, readProperties⟩, readRest⟩
  · intro parts
    obtain ⟨⟨id, hasId, readId⟩, ⟨properties, hasProperties, readProperties⟩, readRest⟩ := parts
    exact ⟨id, hasId, properties, hasProperties, _, readId, _, readProperties, _, readRest, rfl⟩

theorem ofWritten?_eq_some_iff {limit : Nat} {written : Written} {data : Data} :
    ofWritten? limit written = some data ↔ ∃ below fields, limit = below + 1 ∧
      written = .obj (unnamed fields) ∧ Reads below fields data := by
  constructor
  · intro read
    cases limit with
    | zero => exact absurd read (by cases written <;> simp [ofWritten?])
    | succ below =>
      cases written with
      | obj fields =>
        obtain ⟨named, hasNames, read⟩ := Option.bind_eq_some_iff.mp read
        exact ⟨below, named, rfl, by rw [named?_eq_some_iff.mp hasNames],
          ofFields?_eq_some_iff.mp read⟩
      | _ => exact absurd read (by simp [ofWritten?])
  · intro parts
    obtain ⟨below, fields, rfl, rfl, reads⟩ := parts
    rw [ofWritten?, named?_eq_some_iff.mpr rfl]
    exact ofFields?_eq_some_iff.mpr reads

end Data

namespace Node

structure Reads (limit : Nat) (children? : Written → Option (List Node))
    (fields : List (String × Written)) (node : Node) : Prop where
  kind : ∃ tag, field? fields "type" = some (some (.str (some tag))) ∧ node.kind = Kind.ofTag tag
  children : ReadsAs fields "children" children? node.children
  value : ReadsAs fields "value" asString? node.value
  url : ReadsAs fields "url" asString? node.url
  label : ReadsAs fields "label" asString? node.label
  position : ReadsAs fields "position" (Position.ofWritten? limit) node.position
  data : ReadsAs fields "data" (Data.ofWritten? limit) node.data
  rest : fieldsOf (value? limit) (without knownNames fields) [] = some node.rest

theorem asString?_eq_some_iff {written : Written} {text : String} :
    asString? written = some text ↔ written = .str (some text) := by
  cases written <;> simp [asString?]

theorem ofFields?_eq_some_iff {limit : Nat} {children? : Written → Option (List Node)}
    {fields : List (String × Written)} {node : Node} :
    ofFields? limit children? fields = some node ↔ Reads limit children? fields node := by
  unfold ofFields?
  constructor
  · intro read
    obtain ⟨kind?, hasKind, read⟩ := Option.bind_eq_some_iff.mp read
    obtain ⟨children, hasChildren, read⟩ := Option.bind_eq_some_iff.mp read
    obtain ⟨value, hasValue, read⟩ := Option.bind_eq_some_iff.mp read
    obtain ⟨url, hasUrl, read⟩ := Option.bind_eq_some_iff.mp read
    obtain ⟨label, hasLabel, read⟩ := Option.bind_eq_some_iff.mp read
    obtain ⟨position, hasPosition, read⟩ := Option.bind_eq_some_iff.mp read
    obtain ⟨data, hasData, read⟩ := Option.bind_eq_some_iff.mp read
    obtain ⟨tag, readKind, read⟩ := Option.bind_eq_some_iff.mp read
    obtain ⟨c, readChildren, read⟩ := Option.bind_eq_some_iff.mp read
    obtain ⟨v, readValue, read⟩ := Option.bind_eq_some_iff.mp read
    obtain ⟨u, readUrl, read⟩ := Option.bind_eq_some_iff.mp read
    obtain ⟨l, readLabel, read⟩ := Option.bind_eq_some_iff.mp read
    obtain ⟨p, readPosition, read⟩ := Option.bind_eq_some_iff.mp read
    obtain ⟨d, readData, read⟩ := Option.bind_eq_some_iff.mp read
    obtain ⟨rest, readRest, read⟩ := Option.bind_eq_some_iff.mp read
    obtain rfl := Option.some.inj read
    obtain ⟨kind, rfl, isText⟩ := Option.bind_eq_some_iff.mp readKind
    rw [asString?_eq_some_iff.mp isText] at hasKind
    exact ⟨⟨tag, hasKind, rfl⟩, ⟨children, hasChildren, readChildren⟩, ⟨value, hasValue, readValue⟩,
      ⟨url, hasUrl, readUrl⟩, ⟨label, hasLabel, readLabel⟩, ⟨position, hasPosition, readPosition⟩,
      ⟨data, hasData, readData⟩, readRest⟩
  · intro parts
    obtain ⟨⟨tag, hasKind, kind⟩, ⟨children, hasChildren, readChildren⟩,
      ⟨value, hasValue, readValue⟩, ⟨url, hasUrl, readUrl⟩, ⟨label, hasLabel, readLabel⟩,
      ⟨position, hasPosition, readPosition⟩, ⟨data, hasData, readData⟩, readRest⟩ := parts
    refine Option.bind_eq_some_iff.mpr ⟨_, hasKind, ?_⟩
    refine Option.bind_eq_some_iff.mpr ⟨_, hasChildren, ?_⟩
    refine Option.bind_eq_some_iff.mpr ⟨_, hasValue, ?_⟩
    refine Option.bind_eq_some_iff.mpr ⟨_, hasUrl, ?_⟩
    refine Option.bind_eq_some_iff.mpr ⟨_, hasLabel, ?_⟩
    refine Option.bind_eq_some_iff.mpr ⟨_, hasPosition, ?_⟩
    refine Option.bind_eq_some_iff.mpr ⟨_, hasData, ?_⟩
    refine Option.bind_eq_some_iff.mpr ⟨tag, rfl, ?_⟩
    refine Option.bind_eq_some_iff.mpr ⟨_, readChildren, ?_⟩
    refine Option.bind_eq_some_iff.mpr ⟨_, readValue, ?_⟩
    refine Option.bind_eq_some_iff.mpr ⟨_, readUrl, ?_⟩
    refine Option.bind_eq_some_iff.mpr ⟨_, readLabel, ?_⟩
    refine Option.bind_eq_some_iff.mpr ⟨_, readPosition, ?_⟩
    refine Option.bind_eq_some_iff.mpr ⟨_, readData, ?_⟩
    refine Option.bind_eq_some_iff.mpr ⟨_, readRest, ?_⟩
    rw [← kind]
    cases node
    rfl

theorem ofWritten?_eq_some_iff {limit : Nat} {written : Written} {node : Node} :
    ofWritten? limit written = some node ↔ ∃ below fields, limit = below + 1 ∧
      written = .obj (unnamed fields) ∧ Reads below (children? below) fields node := by
  constructor
  · intro read
    cases limit with
    | zero => exact absurd read (by cases written <;> simp [ofWritten?])
    | succ below =>
      cases written with
      | obj fields =>
        rw [ofWritten?] at read
        obtain ⟨named, hasNames, read⟩ := Option.bind_eq_some_iff.mp read
        exact ⟨below, named, rfl, by rw [named?_eq_some_iff.mp hasNames],
          ofFields?_eq_some_iff.mp read⟩
      | _ => exact absurd read (by simp [ofWritten?])
  · intro parts
    obtain ⟨below, fields, rfl, rfl, reads⟩ := parts
    rw [ofWritten?, named?_eq_some_iff.mpr rfl]
    exact ofFields?_eq_some_iff.mpr reads

theorem children?_eq_some_iff {limit : Nat} {written : Written} {nodes : List Node} :
    children? limit written = some nodes ↔ ∃ below items, limit = below + 1 ∧
      written = .arr items ∧
      List.Forall₂ (fun item node => ofWritten? below item = some node) items nodes := by
  constructor
  · intro read
    cases limit with
    | zero => exact absurd read (by cases written <;> simp [children?])
    | succ below =>
      cases written with
      | arr items =>
        rw [children?, mapM_eq_some_iff] at read
        exact ⟨below, items, rfl, rfl, read⟩
      | _ => exact absurd read (by simp [children?])
  · intro parts
    obtain ⟨below, items, rfl, rfl, each⟩ := parts
    rw [children?, mapM_eq_some_iff]
    exact each

end Node

end PageTree
