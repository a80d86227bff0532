import PageTree.Proofs.Json.Reading
import PageTree.Proofs.Tree.Decoding

/-!
What a decoded tree looks like. It is formed, whatever text it was read from, and it is canonical as
soon as the numbers of the text are 64-bit integers. Numbers inside a position need not be looked
at, because reading a position accepts no others where it does not drop them.
-/

namespace PageTree

open Json (Written)
open Json.Written (AllNumerals Integer Members Names field? without fieldsOf value? unnamed ReadsAs
  properties? asU64? fieldsOf_eq_some_iff named?_eq_some_iff)

namespace Json.Written

theorem mem_of_field? {fields : List (String × Written)} {name : String} {value : Written}
    (stands : field? fields name = some (some value)) : (name, value) ∈ fields := by
  unfold field? at stands
  split at stands
  · cases stands
  · next field only =>
    cases stands
    have member : field ∈ fields.filter fun field => field.1 == name := by
      rw [only]
      exact List.mem_singleton_self field
    obtain ⟨inside, named⟩ := List.mem_filter.mp member
    obtain rfl : field.1 = name := by simpa using named
    exact inside
  · cases stands

theorem exists_of_optional {α : Type} {read : Written → Option α} {found : Option Written}
    {result : Option α} (reads : Written.optional read found = some result) {x : α}
    (known : x ∈ result) :
    ∃ written, found = some written ∧ written ≠ .null ∧ read written = some x := by
  obtain rfl : result = some x := known
  unfold Written.optional at reads
  split at reads
  · cases reads
  · cases reads
  · next written notNull =>
    obtain ⟨y, read, same⟩ := Option.map_eq_some_iff.mp reads
    cases same
    exact ⟨written, rfl, notNull, read⟩

theorem ReadsAs.value {α : Type} {fields : List (String × Written)} {name : String}
    {read : Written → Option α} {result : Option α} (reads : ReadsAs fields name read result)
    {x : α} (known : x ∈ result) :
    ∃ written, (name, written) ∈ fields ∧ written ≠ .null ∧ read written = some x := by
  obtain ⟨found, stands, reads⟩ := reads
  obtain ⟨written, rfl, notNull, read⟩ := exists_of_optional reads known
  exact ⟨written, mem_of_field? stands, notNull, read⟩

theorem lt_of_asU64? {written : Written} {n : Nat} (read : asU64? written = some n) :
    n < Json.u64Bound := by
  cases written with
  | num numeral =>
    simp only [asU64?, Numeral.asU64?] at read
    split at read
    · next i kept =>
      have range := (inRange_of_integer? kept).2
      split at read <;> cases read
      omega
    · cases read
  | _ => cases read

theorem mem_without {names : List String} {fields : List (String × Written)}
    {member : Option String × Written} : member ∈ without names fields ↔
      ∃ field ∈ fields, field.1 ∉ names ∧ member = (some field.1, field.2) := by
  simp only [without, List.mem_map, List.mem_filter]
  constructor
  · intro inside
    obtain ⟨field, ⟨stands, kept⟩, rfl⟩ := inside
    exact ⟨field, stands, by simpa using kept, rfl⟩
  · intro inside
    obtain ⟨field, stands, kept, rfl⟩ := inside
    exact ⟨field, ⟨stands, by simpa using kept⟩, rfl⟩

theorem apart_of_fieldsOf {read : Written → Option Json} {names : List String}
    {fields : List (String × Written)} {result : Json.Fields}
    (done : fieldsOf read (without names fields) [] = some result) :
    ∀ name ∈ Json.Fields.names result, name ∉ names := by
  intro name member
  obtain ⟨pairs, each, rfl⟩ := fieldsOf_eq_some_iff.mp done
  obtain ⟨field, stands, rfl⟩ := List.mem_map.mp member
  rcases Json.Fields.mem_putAll stands with inPairs | none
  · obtain ⟨source, inside, named, -⟩ := exists_of_mem_forall₂ each inPairs
    obtain ⟨original, -, kept, rfl⟩ := mem_without.mp inside
    rw [← Option.some.inj named]
    exact kept
  · cases none

theorem value?_of_fieldsOf {limit : Nat} {members : Members} {result : Json.Fields}
    (done : fieldsOf (value? limit) members [] = some result) :
    value? (limit + 1) (.obj members) = some (.obj result) := by
  rw [value?, done, Option.map_some]

theorem AllNumerals.member {p : Numeral → Prop} {members : Members}
    (all : AllNumerals p (.obj members)) : ∀ member ∈ members, AllNumerals p member.2 := by
  cases all with
  | obj each => exact each

theorem AllNumerals.field {p : Numeral → Prop} {fields : List (String × Written)}
    (all : AllNumerals p (.obj (unnamed fields))) : ∀ field ∈ fields, AllNumerals p field.2 :=
  fun field inside => all.member (some field.1, field.2) (List.mem_map_of_mem inside)

theorem AllNumerals.item {p : Numeral → Prop} {items : List Written}
    (all : AllNumerals p (.arr items)) : ∀ item ∈ items, AllNumerals p item := by
  cases all with
  | arr each => exact each

theorem AllNumerals.without {p : Numeral → Prop} {names : List String}
    {fields : List (String × Written)}
    (all : ∀ field ∈ fields, field.1 ∉ names → AllNumerals p field.2) :
    ∀ member ∈ without names fields, AllNumerals p member.2 := by
  intro member inside
  obtain ⟨field, stands, kept, rfl⟩ := mem_without.mp inside
  exact all field stands kept

theorem ne_null_of_value? {limit : Nat} {written : Written} (integers : AllNumerals Integer written)
    (notNull : written ≠ .null) {value : Json} (read : value? limit written = some value) :
    value ≠ .null := by
  cases written with
  | null => exact absurd rfl notNull
  | bool b =>
    rw [value?_bool] at read
    cases read
    simp
  | num n =>
    cases integers with
    | num here =>
      obtain ⟨i, kept⟩ := Option.isSome_iff_exists.mp here
      rw [value?_num, Numeral.value?, kept] at read
      cases read
      simp
  | str text =>
    rw [value?_str] at read
    obtain ⟨s, -, rfl⟩ := Option.map_eq_some_iff.mp read
    simp
  | arr items =>
    obtain ⟨below, values, -, -, rfl⟩ := value?_arr_eq_some_iff.mp read
    simp
  | obj members =>
    obtain ⟨below, pairs, -, -, rfl⟩ := value?_obj_eq_some_iff.mp read
    simp

end Json.Written

open Json.Written (mem_of_field? exists_of_optional lt_of_asU64? apart_of_fieldsOf
  value?_of_fieldsOf ne_null_of_value? properties?_eq_some_iff)

namespace Point

theorem Reads.formed {line column : Written} {offset : Option Written} {point : Point}
    (reads : Reads line column offset point) : point.Formed where
  line := lt_of_asU64? reads.line
  column := lt_of_asU64? reads.column
  offset := by
    intro n known
    obtain ⟨written, -, -, read⟩ := exists_of_optional reads.offset known
    exact lt_of_asU64? read

theorem reads_of_ofWritten? {written : Written} {point : Point}
    (read : ofWritten? written = some point) :
    ∃ line column offset, Reads line column offset point ∧
      ((∃ fields, written = .obj (unnamed fields) ∧ field? fields "line" = some (some line) ∧
          field? fields "column" = some (some column) ∧ field? fields "offset" = some offset) ∨
        written = .arr (line :: column :: offset.toList)) := by
  unfold ofWritten? at read
  split at read
  · next fields =>
    obtain ⟨named, hasNames, readFields⟩ := Option.bind_eq_some_iff.mp read
    obtain ⟨line, column, offset, hasLine, hasColumn, hasOffset, reads⟩ :=
      ofFields?_eq_some_iff.mp readFields
    have written := congrArg Written.obj (named?_eq_some_iff.mp hasNames)
    exact ⟨line, column, offset, reads, Or.inl ⟨named, written, hasLine, hasColumn, hasOffset⟩⟩
  · next line column =>
    obtain ⟨l, readLine, read⟩ := Option.bind_eq_some_iff.mp read
    obtain ⟨c, readColumn, read⟩ := Option.bind_eq_some_iff.mp read
    cases read
    exact ⟨line, column, none, ⟨readLine, readColumn, rfl⟩, Or.inr rfl⟩
  · next line column offset =>
    obtain ⟨l, readLine, read⟩ := Option.bind_eq_some_iff.mp read
    obtain ⟨c, readColumn, read⟩ := Option.bind_eq_some_iff.mp read
    obtain ⟨o, readOffset, read⟩ := Option.bind_eq_some_iff.mp read
    cases read
    exact ⟨line, column, some offset, ⟨readLine, readColumn, readOffset⟩, Or.inr rfl⟩
  · cases read

end Point

namespace Position

theorem reads_of_ofWritten? {limit : Nat} {written : Written} {position : Position}
    (read : ofWritten? limit written = some position) :
    ∃ start finish, Point.ofWritten? start = some position.start ∧
      Point.ofWritten? finish = some position.finish ∧
      ((∃ fields, written = .obj (unnamed fields) ∧ field? fields "start" = some (some start) ∧
          field? fields "end" = some (some finish)) ∨ written = .arr [start, finish]) := by
  unfold ofWritten? at read
  split at read
  · next fields =>
    split at read
    · obtain ⟨named, hasNames, readFields⟩ := Option.bind_eq_some_iff.mp read
      obtain ⟨start, finish, hasStart, hasFinish, readStart, readFinish⟩ :=
        ofFields?_eq_some_iff.mp readFields
      have written := congrArg Written.obj (named?_eq_some_iff.mp hasNames)
      exact ⟨start, finish, readStart, readFinish, Or.inl ⟨named, written, hasStart, hasFinish⟩⟩
    · cases read
  · next start finish =>
    split at read
    · obtain ⟨s, readStart, read⟩ := Option.bind_eq_some_iff.mp read
      obtain ⟨f, readFinish, read⟩ := Option.bind_eq_some_iff.mp read
      cases read
      exact ⟨start, finish, readStart, readFinish, Or.inr rfl⟩
    · cases read
  · cases read

theorem formed_of_ofWritten? {limit : Nat} {written : Written} {position : Position}
    (read : ofWritten? limit written = some position) : position.Formed := by
  obtain ⟨start, finish, readStart, readFinish, -⟩ := reads_of_ofWritten? read
  obtain ⟨_, _, _, startReads, -⟩ := Point.reads_of_ofWritten? readStart
  obtain ⟨_, _, _, finishReads, -⟩ := Point.reads_of_ofWritten? readFinish
  exact ⟨startReads.formed, finishReads.formed⟩

end Position

namespace Data

theorem Reads.formed {limit : Nat} {fields : List (String × Written)} {data : Data}
    (reads : Reads limit fields data)
    (spelled : ∀ field ∈ fields, AllNumerals Json.Numeral.Spelled field.2) : data.Formed where
  id := by
    intro id known
    obtain ⟨written, member, -, read⟩ := reads.id.value known
    exact Json.distinct_of_value? (spelled _ member) read
  properties := by
    intro properties known
    obtain ⟨written, member, -, read⟩ := reads.properties.value known
    obtain ⟨below, members, rfl, rfl, done⟩ := properties?_eq_some_iff.mp read
    exact Json.distinct_of_value? (spelled _ member) (value?_of_fieldsOf done)
  rest := Json.distinct_of_value?
    (.obj (AllNumerals.without fun field member _ => spelled field member))
    (value?_of_fieldsOf reads.rest)

theorem Reads.canonical {limit : Nat} {fields : List (String × Written)} {data : Data}
    (reads : Reads limit fields data)
    (integers : ∀ field ∈ fields, AllNumerals Integer field.2) : data.Canonical where
  id := by
    intro id known
    obtain ⟨written, member, notNull, read⟩ := reads.id.value known
    exact ⟨ne_null_of_value? (integers _ member) notNull read,
      Json.integral_of_value? (integers _ member) read⟩
  properties := by
    intro properties known
    obtain ⟨written, member, -, read⟩ := reads.properties.value known
    obtain ⟨below, members, rfl, rfl, done⟩ := properties?_eq_some_iff.mp read
    exact Json.integral_of_value? (integers _ member) (value?_of_fieldsOf done)
  rest := Json.integral_of_value?
    (.obj (AllNumerals.without fun field member _ => integers field member))
    (value?_of_fieldsOf reads.rest)
  names := by
    intro name member
    have apart := apart_of_fieldsOf reads.rest name member
    simpa [knownNames] using apart

end Data

/-- The numbers of a written node outside the positions in it are all 64-bit integers. -/
inductive Json.Written.IntegersOutsidePositions : Written → Prop
  | obj {members : Members}
      (other : ∀ member ∈ members, member.1 ≠ some "position" → member.1 ≠ some "children" →
        AllNumerals Integer member.2)
      (children : ∀ items, (some "children", .arr items) ∈ members →
        ∀ item ∈ items, IntegersOutsidePositions item) :
      IntegersOutsidePositions (.obj members)

open Json.Written (IntegersOutsidePositions)

namespace Node

/-- Induction over the reading of a tree: a fact about a written node and the node that is read from
it may be assumed of the children. -/
theorem read_induction {motive : Written → Node → Prop}
    (step : ∀ limit fields node, Reads limit (children? limit) fields node →
      (∀ nodes ∈ node.children, ∃ items, field? fields "children" = some (some (.arr items)) ∧
        List.Forall₂ motive items nodes) →
      motive (.obj (unnamed fields)) node)
    {limit : Nat} {written : Written} {node : Node} (read : ofWritten? limit written = some node) :
    motive written node := by
  induction limit using Nat.strong_induction_on generalizing written node with
  | _ limit ih =>
    obtain ⟨below, fields, rfl, rfl, reads⟩ := ofWritten?_eq_some_iff.mp read
    refine step below fields node reads fun nodes known => ?_
    obtain ⟨found, stands, readChildren⟩ := reads.children
    obtain ⟨written, rfl, -, readChildren⟩ := exists_of_optional readChildren known
    obtain ⟨low, items, rfl, rfl, each⟩ := children?_eq_some_iff.mp readChildren
    exact ⟨items, stands, each.imp fun item child read => ih low (by omega) read⟩

theorem formed_of_ofWritten? {limit : Nat} {written : Written}
    (spelled : AllNumerals Json.Numeral.Spelled written) {node : Node}
    (read : ofWritten? limit written = some node) : node.Formed := by
  refine read_induction (motive := fun written node =>
    AllNumerals Json.Numeral.Spelled written → node.Formed) ?_ read spelled
  intro limit fields node reads children spelled
  have each := spelled.field
  refine .intro ⟨?_, ?_, ?_⟩ fun child member => ?_
  · intro position known
    obtain ⟨written, -, -, read⟩ := reads.position.value known
    exact Position.formed_of_ofWritten? read
  · intro data known
    obtain ⟨written, member, -, read⟩ := reads.data.value known
    obtain ⟨below, fields, rfl, rfl, reads⟩ := Data.ofWritten?_eq_some_iff.mp read
    exact reads.formed (each _ member).field
  · exact Json.distinct_of_value?
      (.obj (AllNumerals.without fun field member _ => each field member))
      (value?_of_fieldsOf reads.rest)
  · cases known : node.children with
    | none => exact absurd member (by simp [childList, known])
    | some nodes =>
      obtain ⟨items, stands, related⟩ := children nodes known
      have inNodes : child ∈ nodes := by simpa [childList, known] using member
      obtain ⟨item, inItems, formed⟩ := exists_of_mem_forall₂ related inNodes
      exact formed ((each _ (mem_of_field? stands)).item item inItems)

theorem ofTag_own {tag text : String} (other : Kind.ofTag text = .other tag) :
    ∀ kind ∈ Kind.known, kind.tag ≠ tag := by
  unfold Kind.ofTag at other
  cases found : Kind.known.find? fun kind => kind.tag == text with
  | none =>
    rw [found, Option.getD_none] at other
    cases other
    simpa using found
  | some kind =>
    rw [found, Option.getD_some] at other
    subst other
    have inKnown := List.mem_of_find?_eq_some found
    exact absurd inKnown (by simp [Kind.known])

theorem canonical_of_ofWritten? {limit : Nat} {written : Written}
    (integers : written.IntegersOutsidePositions) {node : Node}
    (read : ofWritten? limit written = some node) : node.Canonical := by
  refine read_induction (motive := fun written node =>
    written.IntegersOutsidePositions → node.Canonical) ?_ read integers
  intro limit fields node reads children integers
  cases integers with
  | obj other below =>
    have each : ∀ field ∈ fields, field.1 ≠ "position" → field.1 ≠ "children" →
        AllNumerals Integer field.2 := fun field member noPosition noChildren =>
      other (some field.1, field.2) (List.mem_map_of_mem member) (by simpa using noPosition)
        (by simpa using noChildren)
    refine .intro ⟨?_, ?_, ?_, ?_⟩ fun child member => ?_
    · intro tag own
      obtain ⟨text, -, kind⟩ := reads.kind
      rw [kind] at own
      exact ofTag_own own
    · intro data known
      obtain ⟨written, member, -, read⟩ := reads.data.value known
      obtain ⟨below, fields, rfl, rfl, reads⟩ := Data.ofWritten?_eq_some_iff.mp read
      exact reads.canonical (each _ member (by simp) (by simp)).field
    · refine Json.integral_of_value? (.obj (AllNumerals.without fun field member apart => ?_))
        (value?_of_fieldsOf reads.rest)
      exact each field member (fun same => apart (by simp [same, knownNames]))
        (fun same => apart (by simp [same, knownNames]))
    · intro name member
      have apart := apart_of_fieldsOf reads.rest name member
      simpa [knownNames] using apart
    · cases known : node.children with
      | none => exact absurd member (by simp [childList, known])
      | some nodes =>
        obtain ⟨items, stands, related⟩ := children nodes known
        have inNodes : child ∈ nodes := by simpa [childList, known] using member
        obtain ⟨item, inItems, canonical⟩ := exists_of_mem_forall₂ related inNodes
        have written : (some "children", .arr items) ∈ unnamed fields :=
          List.mem_map_of_mem (mem_of_field? stands)
        exact canonical (below items written item inItems)

end Node

end PageTree
