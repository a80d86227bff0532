import PageTree.Proofs.Files.Naming

/-!
The components of a path. Behind the root, or behind a dot that begins a path, there are names and
ways up only, and a row of such components that is written out reads back as it is. An absolute path
may be settled: each way up then takes back the component before it.
-/

namespace PageTree.Path

/-- A component that may stand inside a path. -/
inductive Component.IsInner : Component → Prop
  | up : IsInner .up
  | name {text : List Char} (isName : IsName text) : IsInner (.name text)

theorem isInner_of_componentOf? {part : List Char} {component : Component} (inner : '/' ∉ part)
    (known : componentOf? part = some component) : component.IsInner := by
  unfold componentOf? at known
  split at known
  · cases known
  · next filled =>
    obtain ⟨some, dot⟩ := not_or.mp filled
    split at known
    · cases known
      exact .up
    · next dots =>
      cases known
      exact .name ⟨inner, some, dot, dots⟩

def leadOf (path : Path) : List Component :=
  if path.isAbsolute then [.root]
  else if (path.splitOn '/').head? = some ['.'] then [.current]
  else []

def inside (path : Path) : List Component := (path.splitOn '/').filterMap componentOf?

theorem components_eq (path : Path) : path.components = path.leadOf ++ path.inside := rfl

theorem isInner_inside (path : Path) : ∀ component ∈ path.inside, component.IsInner := by
  intro component member
  obtain ⟨part, inPath, known⟩ := List.mem_filterMap.mp member
  exact isInner_of_componentOf? (of_mem_splitOn inPath).1 known

theorem isName_of_mem_components {path : Path} {text : List Char}
    (member : .name text ∈ path.components) : IsName text := by
  rw [components_eq, List.mem_append] at member
  rcases member with front | inner
  · rw [leadOf] at front
    split at front
    · simp at front
    · split at front <;> simp at front
  · cases isInner_inside path _ inner with
    | name isName => exact isName

theorem Component.IsInner.text_inner {component : Component} (isInner : component.IsInner) :
    '/' ∉ component.text := by
  cases isInner with
  | up => decide
  | name isName => exact isName.inner

theorem Component.IsInner.componentOf?_text {component : Component} (isInner : component.IsInner) :
    componentOf? component.text = some component := by
  cases isInner with
  | up => rfl
  | name isName => exact componentOf?_name isName

theorem filterMap_text {components : List Component}
    (inner : ∀ component ∈ components, component.IsInner) :
    (components.map Component.text).filterMap componentOf? = components := by
  induction components with
  | nil => rfl
  | cons component components ih =>
    obtain ⟨first, rest⟩ := List.forall_mem_cons.mp inner
    rw [List.map_cons, List.filterMap_cons, first.componentOf?_text, ih rest]

theorem splitOn_render {components : List Component} (some : components ≠ [])
    (notRoot : components ≠ [.root]) (plain : ∀ component ∈ components, '/' ∉ component.text) :
    (render components).splitOn '/' = components.map Component.text := by
  have spelled : render components = List.intercalate ['/'] (components.map Component.text) := by
    unfold render
    split
    · exact absurd rfl notRoot
    · rfl
  rw [spelled]
  apply List.splitOn_intercalate
  · intro text member
    obtain ⟨component, inList, rfl⟩ := List.mem_map.mp member
    exact plain component inList
  · exact List.map_eq_nil_iff.not.mpr some

theorem head?_splitOn_of_isAbsolute {path : Path} (absolute : path.isAbsolute = true) :
    (path.splitOn '/').head? = some [] := by
  cases path with
  | nil => cases absolute
  | cons c path =>
    rw [isAbsolute_eq, List.head?_cons, beq_iff_eq, Option.some.injEq] at absolute
    rw [List.splitOn_cons_eq_if_modifyHead, absolute]
    rfl

theorem components_render {components : List Component}
    (inner : ∀ component ∈ components, component.IsInner) :
    (render components).components = components := by
  cases components with
  | nil => decide
  | cons component rest =>
    have first := inner component List.mem_cons_self
    have notRoot : component :: rest ≠ [.root] := by
      rintro same
      cases (List.cons.inj same).1 ▸ first
    have parts := splitOn_render (List.cons_ne_nil component rest) notRoot fun other member =>
      (inner other member).text_inner
    have known := first.componentOf?_text
    have relative : (render (component :: rest)).isAbsolute = false := by
      rw [Bool.eq_false_iff]
      intro absolute
      have head := head?_splitOn_of_isAbsolute absolute
      rw [parts, List.map_cons, List.head?_cons, Option.some.injEq] at head
      rw [head] at known
      cases known
    have plain : component.text ≠ ['.'] := by
      intro dot
      rw [dot] at known
      cases known
    rw [Path.components, relative, parts, filterMap_text inner]
    simp [plain]

theorem components_render_root {inner : List Component}
    (each : ∀ component ∈ inner, component.IsInner) :
    (render (.root :: inner)).components = .root :: inner := by
  cases inner with
  | nil => decide
  | cons component rest =>
    have parts := splitOn_render (List.cons_ne_nil Component.root (component :: rest)) (by simp)
      (List.forall_mem_cons.mpr ⟨by decide, fun other member => (each other member).text_inner⟩)
    have absolute : (render (.root :: component :: rest)).isAbsolute = true := rfl
    have none : componentOf? Component.root.text = none := rfl
    rw [Path.components, absolute, parts, List.map_cons, List.filterMap_cons, none,
      filterMap_text each]
    rfl

def settleStep (before : List Component) : Component → List Component
  | .current => before
  | .up => if before = [.root] then before else before.dropLast
  | component => before ++ [component]

/-- The components that are left when each way up takes back the component before it. -/
def settle (components : List Component) : List Component := components.foldl settleStep []

theorem settle_names {components : List Component}
    (plain : ∀ component ∈ components, component ≠ .current ∧ component ≠ .up) :
    settle components = components := by
  have walk : ∀ before : List Component,
      components.foldl settleStep before = before ++ components := by
    induction components with
    | nil => exact fun before => (List.append_nil before).symm
    | cons component components ih =>
      intro before
      obtain ⟨first, rest⟩ := List.forall_mem_cons.mp plain
      have step : settleStep before component = before ++ [component] := by
        cases component with
        | current => exact absurd rfl first.1
        | up => exact absurd rfl first.2
        | _ => rfl
      rw [List.foldl_cons, step, ih rest, List.append_assoc, List.singleton_append]
  exact walk []

theorem exists_settle_root (inner : List Component) :
    ∃ rest, settle (.root :: inner) = .root :: rest := by
  have walk : ∀ before, (∃ rest, before = .root :: rest) →
      ∃ rest, inner.foldl settleStep before = .root :: rest := by
    induction inner with
    | nil => exact fun before known => known
    | cons component inner ih =>
      rintro before ⟨rest, rfl⟩
      apply ih
      cases component with
      | current => exact ⟨rest, rfl⟩
      | up =>
        cases rest with
        | nil => exact ⟨[], rfl⟩
        | cons other rest => exact ⟨(other :: rest).dropLast, by simp [settleStep]⟩
      | root => exact ⟨rest ++ [.root], rfl⟩
      | name text => exact ⟨rest ++ [.name text], rfl⟩
  exact walk [.root] ⟨[], rfl⟩

theorem exists_inside {path : Path} (some : path ≠ []) (relative : path.isAbsolute = false)
    (dot : (path.splitOn '/').head? ≠ .some ['.']) :
    ∃ first rest, path.inside = first :: rest ∧ first ≠ .current := by
  obtain ⟨c, path, rfl⟩ := List.exists_cons_of_ne_nil some
  obtain ⟨front, parts, same⟩ := List.exists_cons_of_ne_nil (List.splitOn_ne_nil '/' path)
  have slash : ¬ (c == '/') = true := by
    rw [isAbsolute_eq, List.head?_cons] at relative
    simpa using relative
  have split : (c :: path).splitOn '/' = (c :: front) :: parts := by
    rw [List.splitOn_cons_eq_if_modifyHead, if_neg slash, same]
    rfl
  rw [split, List.head?_cons, Ne, Option.some.injEq] at dot
  have filled : ¬ (c :: front = [] ∨ c :: front = ['.']) :=
    not_or.mpr ⟨List.cons_ne_nil c front, dot⟩
  rw [inside, split, List.filterMap_cons, componentOf?, if_neg filled]
  split
  · next none => split at none <;> cases none
  · next component known =>
    refine ⟨component, _, rfl, ?_⟩
    rintro rfl
    split at known <;> cases known

theorem absolute_nil (cwd : List Component) : absolute cwd [] = [] := by
  have none : Path.components [] = [] := by decide
  rw [absolute, none]

theorem absolute_eq {path : Path} (some : path ≠ []) (cwd : List Component) :
    absolute cwd path = if path.isAbsolute then .root :: path.inside else cwd ++ path.inside := by
  rw [absolute, components_eq, leadOf]
  cases kind : path.isAbsolute with
  | true => rfl
  | false =>
    by_cases dot : (path.splitOn '/').head? = .some ['.']
    · simp [dot]
    · obtain ⟨first, rest, same, other⟩ := exists_inside some kind dot
      simp only [Bool.false_eq_true, if_false, if_neg dot, List.nil_append, same]
      cases first with
      | current => exact absurd rfl other
      | _ => rfl

/-- The root, and names and ways up behind it. -/
def IsFull (components : List Component) : Prop :=
  ∃ inner, components = .root :: inner ∧ ∀ component ∈ inner, component.IsInner

theorem isFull_names {names : List (List Char)} (each : ∀ name ∈ names, IsName name) :
    IsFull (.root :: names.map .name) := by
  refine ⟨_, rfl, fun component member => ?_⟩
  obtain ⟨name, inList, rfl⟩ := List.mem_map.mp member
  exact .name (each name inList)

theorem isFull_absolute {cwd : List Component} (full : IsFull cwd) {path : Path}
    (some : path ≠ []) : IsFull (absolute cwd path) := by
  rw [absolute_eq some]
  split
  · exact ⟨path.inside, rfl, isInner_inside path⟩
  · obtain ⟨inner, rfl, each⟩ := full
    exact ⟨inner ++ path.inside, rfl, List.forall_mem_append.mpr ⟨each, isInner_inside path⟩⟩

theorem settle_absolute_ne_nil {cwd : List Component} (full : IsFull cwd) {path : Path}
    (some : path ≠ []) : settle (absolute cwd path) ≠ [] := by
  obtain ⟨inner, same, -⟩ := isFull_absolute full some
  obtain ⟨rest, settled⟩ := exists_settle_root inner
  rw [same, settled]
  exact List.cons_ne_nil _ rest

theorem settle_absolute {names : List (List Char)} {path : Path} (plain : .up ∉ path.components) :
    settle (absolute (.root :: names.map .name) path) =
      absolute (.root :: names.map .name) path := by
  by_cases some : path = []
  · rw [some, absolute_nil]
    rfl
  · have behind : ∀ component ∈ path.inside, component ≠ .current ∧ component ≠ .up := by
      intro component member
      constructor
      · rintro rfl
        cases isInner_inside path _ member
      · rintro rfl
        exact plain (components_eq path ▸ List.mem_append_right _ member)
    have front : ∀ component ∈ names.map Component.name,
        component ≠ .current ∧ component ≠ .up := by
      intro component member
      obtain ⟨name, -, rfl⟩ := List.mem_map.mp member
      exact ⟨by simp, by simp⟩
    apply settle_names
    rw [absolute_eq some]
    split
    · exact List.forall_mem_cons.mpr ⟨⟨by simp, by simp⟩, behind⟩
    · refine List.forall_mem_append.mpr ⟨?_, behind⟩
      exact List.forall_mem_cons.mpr ⟨⟨by simp, by simp⟩, front⟩

end PageTree.Path
