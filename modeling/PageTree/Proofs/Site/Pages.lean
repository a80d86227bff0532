import PageTree.Proofs.Files.Naming
import PageTree.Proofs.Files.Shown
import PageTree.Site.ConfigFile

/-!
The pages of a site. What a configuration says about all pages depends on no files but those that it
names, and files that differ in their extensions only are sources of the same page.
-/

namespace PageTree

open PageTree.Path (Component)

namespace Config

theorem readJson_of_same {config : Config} {w later : Workspace} {path : Path} {value : Json}
    (same : ∀ text, w.readText (config.root.join path) = .ok text →
      later.readText (config.root.join path) = .ok text)
    (read : config.readJson w path = .ok value) : config.readJson later path = .ok value := by
  rw [readJson] at read ⊢
  cases known : w.readText (config.root.join path) with
  | error cause => simp [known] at read
  | ok text =>
    rw [same text known]
    simpa [known] using read

theorem pageContext_of_same {config : Config} {w later : Workspace}
    {parseYaml : String → Option Json} {base : PageContext}
    (same : ∀ path ∈ config.registryPaths, ∀ text, w.readText path = .ok text →
      later.readText path = .ok text)
    (known : config.pageContext w parseYaml = .ok base) :
    config.pageContext later parseYaml = .ok base := by
  have pages : ∀ found, config.loadPages w = .ok found → config.loadPages later = .ok found := by
    intro found read
    rw [loadPages] at read ⊢
    cases named : config.site.pages with
    | none => simpa [named] using read
    | some path =>
      have member : config.root.join path ∈ config.registryPaths := by
        simp [registryPaths, named]
      simp only [named] at read ⊢
      cases value : config.readJson w path with
      | error e => simp [value] at read
      | ok value' =>
        rw [readJson_of_same (same _ member) value]
        simpa [value] using read
  have nav : ∀ found, config.loadNav w = .ok found → config.loadNav later = .ok found := by
    intro found read
    rw [loadNav] at read ⊢
    cases named : config.site.nav with
    | none => simpa [named] using read
    | some path =>
      have member : config.root.join path ∈ config.registryPaths := by
        simp [registryPaths, named]
      simp only [named] at read ⊢
      cases value : config.readJson w path with
      | error e => simp [value, Except.map] at read
      | ok value' =>
        rw [readJson_of_same (same _ member) value]
        simpa [value] using read
  unfold pageContext at known ⊢
  cases first : config.loadPages w with
  | error e => simp [first, bind, Except.bind] at known
  | ok found =>
    cases second : config.loadNav w with
    | error e => simp [first, second, bind, Except.bind] at known
    | ok there =>
      rw [pages found first, nav there second]
      simpa [first, second] using known

end Config

namespace Path

theorem stripBase?_eq_some_iff {path base rest : List Component} :
    stripBase? path base = some rest ↔ path = base ++ rest := by
  induction base generalizing path with
  | nil => cases path <;> simp [stripBase?, eq_comm]
  | cons b base ih =>
    cases path with
    | nil => simp [stripBase?]
    | cons a path =>
      rw [stripBase?]
      split
      · next same => rw [ih, same, List.cons_append, List.cons_inj_right]
      · next apart => simp [apart]

theorem stripBase?_concat {path base : List Component} {last : Component}
    (apart : base ≠ path ++ [last]) :
    stripBase? (path ++ [last]) base = (stripBase? path base).map (· ++ [last]) := by
  cases known : stripBase? path base with
  | some rest =>
    rw [Option.map_some, stripBase?_eq_some_iff, stripBase?_eq_some_iff.mp known,
      List.append_assoc]
  | none =>
    rw [Option.map_none, Option.eq_none_iff_forall_ne_some]
    intro rest found
    have whole := stripBase?_eq_some_iff.mp found
    rcases List.eq_nil_or_concat rest with rfl | ⟨front, other, rfl⟩
    · exact apart (by rw [whole, List.append_nil])
    · rw [List.concat_eq_append, ← List.append_assoc] at whole
      have before := (List.append_inj' whole rfl).1
      rw [stripBase?_eq_some_iff.mpr before] at known
      cases known

theorem exists_absolute_name (cwd : List Component) {start : Path} (leading : Leading start) :
    ∃ front, ∀ {name : List Char}, IsName name →
      absolute cwd (start ++ name) = front ++ [.name name] := by
  cases known : start.components with
  | nil =>
    refine ⟨if start.isAbsolute then [] else cwd, fun {name} isName => ?_⟩
    rw [absolute, components_name leading isName, isAbsolute_leading leading isName.inner, known]
    cases start.isAbsolute <;> simp
  | cons first rest =>
    refine ⟨absolute cwd start, fun {name} isName => ?_⟩
    rw [absolute, absolute, components_name leading isName,
      isAbsolute_leading leading isName.inner, known]
    cases first with
    | current => simp
    | _ => cases start.isAbsolute <;> simp

theorem dropExtension_name {components : List Component} {stem extension : List Char}
    (some : stem ≠ []) (last : '.' ∉ extension) :
    dropExtension (components ++ [.name (stem ++ '.' :: extension)]) =
      components ++ (componentOf? stem).toList := by
  rw [dropExtension, fileName?, List.getLast?_concat]
  simp only [splitName_append some last, List.dropLast_concat]

end Path

namespace PageId

/-- Files beside each other with one stem make pages with one identifier. -/
theorem ofBelow_name {path content : List Component} {stem extension other index : List Char}
    (some : stem ≠ []) (first : '.' ∉ extension) (second : '.' ∉ other)
    (apart : content ≠ path ++ [.name (stem ++ '.' :: extension)])
    (apart' : content ≠ path ++ [.name (stem ++ '.' :: other)]) :
    let id (full : List Component) :=
      ofBelow (((Path.stripBase? full content).getD full).map Component.shown) index
    id (path ++ [.name (stem ++ '.' :: extension)]) = id (path ++ [.name (stem ++ '.' :: other)]) := by
  intro id
  have below : ∀ ending : List Char,
      content ≠ path ++ [.name (stem ++ '.' :: ending)] →
      id (path ++ [.name (stem ++ '.' :: ending)]) =
        ofBelow (((Path.stripBase? path content).getD path).map Component.shown
          ++ [.name (Path.shown stem ++ '.' :: Path.shown ending)]) index := by
    intro ending apart
    simp only [id]
    rw [Path.stripBase?_concat apart, ← Path.shown_append (by decide) stem ending]
    cases Path.stripBase? path content <;> simp [Component.shown]
  have none : ∀ ending : List Char, '.' ∉ ending → '.' ∉ Path.shown ending := fun _ absent member =>
    absent (Path.mem_of_mem_shown (by decide) (by decide) member)
  have shown := Path.shown_ne_nil some
  rw [below extension apart, below other apart', ofBelow, ofBelow,
    Path.dropExtension_name shown (none _ first), Path.dropExtension_name shown (none _ second)]

end PageId

end PageTree
