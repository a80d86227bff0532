import PageTree.Command.Transform
import PageTree.Proofs.Files.Components
import PageTree.Proofs.Site.Pages

/-!
Files and the ways to spell their paths. What the program takes from a path is its absolute form, in
which dots are dropped and ways up are kept. So two spellings without a way up make one page if they
lead to one file, and spellings that differ in their ways up make pages with different paths.
-/

namespace PageTree

namespace Path

theorem below_cases {full : List Component} (isFull : IsFull full) (content : List Component) :
    (full = content ++ (stripBase? full content).getD full ∧
      ∀ component ∈ (stripBase? full content).getD full, component.IsInner) ∨
        (stripBase? full content).getD full = full := by
  cases known : stripBase? full content with
  | none => exact .inr rfl
  | some rest =>
    have whole := stripBase?_eq_some_iff.mp known
    rw [Option.getD_some]
    cases content with
    | nil => exact .inr whole.symm
    | cons first content =>
      obtain ⟨inner, rfl, each⟩ := isFull
      have same := (List.cons.inj whole).2
      refine .inl ⟨whole, fun component member => each component ?_⟩
      rw [same]
      exact List.mem_append_right content member

theorem components_render_below {full : List Component} (isFull : IsFull full)
    (content : List Component) :
    (render ((stripBase? full content).getD full)).components =
      (stripBase? full content).getD full := by
  rcases below_cases isFull content with ⟨-, inner⟩ | whole
  · exact components_render inner
  · obtain ⟨inner, same, each⟩ := isFull
    rw [whole, same]
    exact components_render_root each

/-- What is written of a full path below a folder tells the path. -/
theorem eq_of_render_below {full other : List Component} (isFull : IsFull full)
    (isFull' : IsFull other) (content : List Component)
    (same : render ((stripBase? full content).getD full) =
      render ((stripBase? other content).getD other)) : full = other := by
  have below := congrArg components same
  rw [components_render_below isFull, components_render_below isFull'] at below
  have rooted : ∀ {path : List Component}, IsFull path →
      ¬ ∀ component ∈ path, component.IsInner := by
    rintro _ ⟨inner, rfl, -⟩ each
    cases each .root List.mem_cons_self
  rcases below_cases isFull content with ⟨first, inner⟩ | first <;>
    rcases below_cases isFull' content with ⟨second, inner'⟩ | second
  · rw [first, second, below]
  · rw [below, second] at inner
    exact absurd inner (rooted isFull')
  · rw [← below, first] at inner'
    exact absurd inner' (rooted isFull)
  · rw [← first, ← second, below]

end Path

namespace Command.Batch

variable {b : Batch}

theorem isFull_absolute (cwd : ∀ name ∈ b.cwd, IsName name) {path : Path} (some : path ≠ []) :
    Path.IsFull (b.absolute path) :=
  Path.isFull_absolute (Path.isFull_names cwd) some

theorem selfPath_eq_iff (cwd : ∀ name ∈ b.cwd, IsName name) (noPath : b.config.page.selfPath = none)
    {path other : Path} (some : path ≠ []) (some' : other ≠ []) :
    b.selfPath path = b.selfPath other ↔ b.absolute path = b.absolute other := by
  simp only [selfPath, noPath, below]
  constructor
  · exact Path.eq_of_render_below (isFull_absolute cwd some) (isFull_absolute cwd some') _
  · intro same
    rw [same]

theorem samePage_of_absolute {path other : Path} (same : b.absolute path = b.absolute other) :
    b.pageId path = b.pageId other ∧ b.selfPath path = b.selfPath other := by
  rw [pageId, pageId, selfPath, selfPath, below, below, same]
  exact ⟨rfl, rfl⟩

theorem eq_nil_of_settle (cwd : ∀ name ∈ b.cwd, IsName name) {path : Path}
    (none : Path.settle (b.absolute path) = []) : path = [] := by
  by_contra some
  exact Path.settle_absolute_ne_nil (Path.isFull_names cwd) some none

/-- Two spellings of a path to one place make one page just when they have one absolute form, ways
up included; and so they do if neither of them has a way up. -/
theorem samePage_iff (cwd : ∀ name ∈ b.cwd, IsName name) (noPath : b.config.page.selfPath = none)
    {path other : Path} (same : Path.settle (b.absolute path) = Path.settle (b.absolute other)) :
    (b.pageId path = b.pageId other ∧ b.selfPath path = b.selfPath other ↔
      b.absolute path = b.absolute other) ∧
    (.up ∉ path.components → .up ∉ other.components →
      b.pageId path = b.pageId other ∧ b.selfPath path = b.selfPath other) := by
  have empty : Path.settle (b.absolute []) = [] := by
    rw [absolute, Path.absolute_nil]
    rfl
  constructor
  · refine ⟨fun page => ?_, samePage_of_absolute⟩
    by_cases none : path = []
    · rw [none, empty] at same
      rw [none, eq_nil_of_settle cwd same.symm]
    · have some : other ≠ [] := by
        rintro rfl
        rw [empty] at same
        exact none (eq_nil_of_settle cwd same)
      exact (selfPath_eq_iff cwd noPath none some).mp page.2
  · intro plain plain'
    apply samePage_of_absolute
    calc b.absolute path
        = Path.settle (b.absolute path) := (Path.settle_absolute plain).symm
      _ = Path.settle (b.absolute other) := same
      _ = b.absolute other := Path.settle_absolute plain'

def inDocs : Batch where
  cwd := ["site".toList, "content".toList, "docs".toList]
  arguments := { inputs := [] }
  config := { root := "/site".toList }
  base := {}
  passes := {}

/-- A dot more or less. -/
theorem samePage_dotted :
    (∀ name ∈ inDocs.cwd, IsName name) ∧ inDocs.config.page.selfPath = none ∧
      Path.settle (inDocs.absolute "./intro.md".toList) =
        Path.settle (inDocs.absolute "/site/content/./docs//intro.md".toList) ∧
      inDocs.pageId "./intro.md".toList =
        inDocs.pageId "/site/content/./docs//intro.md".toList := by
  have cwd : ∀ name ∈ inDocs.cwd, IsName name := by
    intro name member
    simp only [inDocs, List.mem_cons, List.not_mem_nil, or_false] at member
    rcases member with rfl | rfl | rfl <;> exact ⟨by decide, by decide, by decide, by decide⟩
  have same : Path.settle (inDocs.absolute "./intro.md".toList) =
      Path.settle (inDocs.absolute "/site/content/./docs//intro.md".toList) := by decide
  exact ⟨cwd, rfl, same, ((samePage_iff cwd rfl same).2 (by decide) (by decide)).1⟩

/-- A way up is kept, so a file named from a folder beside it makes the page of another file. -/
theorem pageId_wayUp :
    let files : FileSystem := ⟨[(["site".toList], .folder),
      (["site".toList, "content".toList], .folder),
      (["site".toList, "content".toList, "docs".toList], .folder),
      (["site".toList, "content".toList, "intro.md".toList], .file (some "Hello"))]⟩
    files.readText inDocs.cwd "../intro.md".toList = .ok "Hello" ∧
      files.readText inDocs.cwd "/site/content/intro.md".toList = .ok "Hello" ∧
      Path.settle (inDocs.absolute "../intro.md".toList) =
        Path.settle (inDocs.absolute "/site/content/intro.md".toList) ∧
      inDocs.pageId "../intro.md".toList = "docs/intro" ∧
      inDocs.pageId "/site/content/intro.md".toList = "intro" ∧
      inDocs.selfPath "../intro.md".toList = "docs/../intro.md".toList ∧
      inDocs.selfPath "/site/content/intro.md".toList = "intro.md".toList := by
  decide

end Command.Batch

end PageTree
