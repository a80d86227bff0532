import Mathlib.Data.List.TakeDrop
import PageTree.Proofs.Files.Following
import PageTree.Site.PageId
import PageTree.Site.Source

/-!
Paths that end in a name. Such a path is a beginning that is empty or ends in a slash, and then the
name; what the path leads to is an entry of the folder that the beginning leads to. Names that begin
alike and have other extensions are other names.
-/

namespace PageTree

structure IsName (name : List Char) : Prop where
  inner : '/' ∉ name
  some : name ≠ []
  dot : name ≠ ['.']
  dots : name ≠ ['.', '.']

/-- A beginning of a path that a name may follow. -/
def Leading (start : Path) : Prop := start = [] ∨ ∃ folder, start = folder ++ ['/']

namespace Path

theorem exists_leading (path : Path) :
    ∃ start name, Leading start ∧ '/' ∉ name ∧ path = start ++ name := by
  induction path with
  | nil => exact ⟨[], [], .inl rfl, List.not_mem_nil, rfl⟩
  | cons c path ih =>
    obtain ⟨start, name, leading, inner, rfl⟩ := ih
    rcases leading with rfl | ⟨folder, rfl⟩
    · by_cases slash : c = '/'
      · exact ⟨['/'], name, .inr ⟨[], rfl⟩, inner, by rw [slash]; rfl⟩
      · refine ⟨[], c :: name, .inl rfl, ?_, rfl⟩
        simpa [List.mem_cons, eq_comm, slash] using inner
    · exact ⟨c :: (folder ++ ['/']), name, .inr ⟨c :: folder, rfl⟩, inner, rfl⟩

theorem splitOn_folder (folder : Path) {name : List Char} (inner : '/' ∉ name) :
    (folder ++ ['/'] ++ name).splitOn '/' = folder.splitOn '/' ++ [name] := by
  rw [List.append_assoc, List.singleton_append, List.splitOn_append_cons_self,
    List.splitOn_eq_singleton inner]

theorem of_mem_splitOn {path part : List Char} (member : part ∈ path.splitOn '/') :
    '/' ∉ part ∧ part ⊆ path := by
  induction path generalizing part with
  | nil =>
    rw [List.splitOn_nil, List.mem_singleton] at member
    rw [member]
    exact ⟨List.not_mem_nil, List.nil_subset _⟩
  | cons c path ih =>
    rw [List.splitOn_cons_eq_if_modifyHead] at member
    split at member
    · rcases List.mem_cons.mp member with rfl | later
      · exact ⟨List.not_mem_nil, List.nil_subset _⟩
      · exact ⟨(ih later).1, List.subset_cons_of_subset c (ih later).2⟩
    · next other =>
      obtain ⟨first, parts, same⟩ := List.exists_cons_of_ne_nil (List.splitOn_ne_nil '/' path)
      rw [same] at member ih
      rcases List.mem_cons.mp member with rfl | later
      · have slash : '/' ≠ c := fun same => other (beq_iff_eq.mpr same.symm)
        obtain ⟨inner, inside⟩ := ih List.mem_cons_self
        exact ⟨List.not_mem_cons_of_ne_of_not_mem slash inner, List.cons_subset_cons c inside⟩
      · obtain ⟨inner, inside⟩ := ih (List.mem_cons_of_mem _ later)
        exact ⟨inner, List.subset_cons_of_subset c inside⟩

theorem isAbsolute_eq (path : Path) : path.isAbsolute = (path.head? == some '/') := by
  unfold isAbsolute
  split
  · rfl
  · next other =>
    cases path with
    | nil => rfl
    | cons c path =>
      have slash : c ≠ '/' := fun same => other path (by rw [same])
      simpa using slash

theorem isAbsolute_leading {start : Path} (leading : Leading start) {name : List Char}
    (inner : '/' ∉ name) : (start ++ name).isAbsolute = start.isAbsolute := by
  rw [isAbsolute_eq, isAbsolute_eq]
  rcases leading with rfl | ⟨folder, rfl⟩
  · cases name with
    | nil => rfl
    | cons c name =>
      have slash : c ≠ '/' := fun same => inner (same ▸ List.mem_cons_self)
      simpa using slash
  · simp [List.head?_append]

theorem components_leading {start : Path} (leading : Leading start) {name : List Char}
    (inner : '/' ∉ name) (dot : name ≠ ['.']) :
    (start ++ name).components = start.components ++ (componentOf? name).toList := by
  have last : ∀ parts : List (List Char), (parts ++ [name]).filterMap componentOf? =
      parts.filterMap componentOf? ++ (componentOf? name).toList := by
    intro parts
    rw [List.filterMap_append]
    cases known : componentOf? name <;> simp [known]
  rw [components, components, isAbsolute_leading leading inner]
  rcases leading with rfl | ⟨folder, rfl⟩
  · have alone : name.splitOn '/' = [name] := List.splitOn_eq_singleton inner
    have none : [[]].filterMap componentOf? = [] := by simp [componentOf?]
    rw [List.nil_append, alone]
    simpa [dot, none] using last []
  · have before := splitOn_folder folder (List.not_mem_nil (a := '/'))
    rw [List.append_nil] at before
    obtain ⟨first, others, parts⟩ := List.exists_cons_of_ne_nil (List.splitOn_ne_nil '/' folder)
    have dropped : (folder.splitOn '/' ++ [[]]).filterMap componentOf? =
        (folder.splitOn '/').filterMap componentOf? := by
      rw [List.filterMap_append]
      simp [componentOf?]
    rw [splitOn_folder folder inner, before, last, dropped, parts]
    simp

theorem componentOf?_name {name : List Char} (isName : IsName name) :
    componentOf? name = some (.name name) := by
  rw [componentOf?, if_neg (not_or.mpr ⟨isName.some, isName.dot⟩), if_neg isName.dots]

theorem components_name {start : Path} (leading : Leading start) {name : List Char}
    (isName : IsName name) : (start ++ name).components = start.components ++ [.name name] := by
  rw [components_leading leading isName.inner isName.dot, componentOf?_name isName,
    Option.toList_some]

theorem fileName?_name {start : Path} (leading : Leading start) {name : List Char}
    (isName : IsName name) : fileName? (start ++ name).components = some name := by
  rw [components_name leading isName, fileName?, List.getLast?_concat]

end Path

namespace FileSystem

theorem parts_name {start : Path} (leading : Leading start) {name : List Char}
    (inner : '/' ∉ name) (some : name ≠ []) : parts (start ++ name) = parts start ++ [name] := by
  rw [parts, parts]
  rcases leading with rfl | ⟨folder, rfl⟩
  · have alone : name.splitOn '/' = [name] := List.splitOn_eq_singleton inner
    rw [List.nil_append, alone]
    simp [some]
  · have before := Path.splitOn_folder folder (List.not_mem_nil (a := '/'))
    rw [List.append_nil] at before
    rw [Path.splitOn_folder folder inner, before]
    simp [some]

theorem namesFolder_name (start : Path) {name : List Char} (inner : '/' ∉ name)
    (some : name ≠ []) : namesFolder (start ++ name) = false := by
  obtain ⟨front, c, same⟩ := (List.eq_nil_or_concat name).resolve_left some
  rw [List.concat_eq_append] at same
  have slash : c ≠ '/' := fun known => inner (by simp [same, known])
  rw [namesFolder, same, ← List.append_assoc, List.getLast?_concat]
  simpa using slash

/-- The place that the folder of a path leads to. -/
def locateFolder (files : FileSystem) (cwd : Place) (start : Path) : Except FileError Place :=
  files.follow (if start.isAbsolute then [] else cwd) (parts start)

theorem Keeps.locateFolder {files others : FileSystem} (keeps : Keeps files others)
    {cwd folder : Place} {start : Path} (leads : files.locateFolder cwd start = .ok folder) :
    others.locateFolder cwd start = .ok folder := keeps.follow leads

theorem locateFolder_slash (files : FileSystem) (cwd : Place) {folder : Path} (some : folder ≠ []) :
    files.locateFolder cwd (folder ++ ['/']) = files.locateFolder cwd folder := by
  have inner := Path.splitOn_folder folder (List.not_mem_nil (a := '/'))
  rw [List.append_nil] at inner
  have sameParts : parts (folder ++ ['/']) = parts folder := by
    rw [parts, parts, inner]
    simp
  have sameStart : (folder ++ ['/']).isAbsolute = Path.isAbsolute folder := by
    obtain ⟨c, rest, rfl⟩ := List.exists_cons_of_ne_nil some
    rw [Path.isAbsolute_eq, Path.isAbsolute_eq, List.cons_append, List.head?_cons, List.head?_cons]
  rw [locateFolder, locateFolder, sameParts, sameStart]

theorem locate_name {files : FileSystem} {cwd place : Place} {start : Path}
    (leading : Leading start) {name : List Char} (isName : IsName name) :
    files.locate cwd (start ++ name) = .ok place ↔
      Char.ofNat 0 ∉ start ++ name ∧ ∃ folder, files.locateFolder cwd start = .ok folder ∧
        files.find? folder = some .folder ∧ place = folder ++ [name] := by
  have some : start ++ name ≠ [] := by simp [isName.some]
  rw [locate, Path.isAbsolute_leading leading isName.inner,
    parts_name leading isName.inner isName.some, if_neg some]
  by_cases bad : Char.ofNat 0 ∈ start ++ name
  · simp [bad]
  · have plain : (start ++ name).contains (Char.ofNat 0) = false := by
      simpa using bad
    rw [plain, if_neg Bool.false_ne_true, follow_name isName.dot isName.dots]
    exact ⟨fun leads => ⟨bad, leads⟩, fun leads => leads.2⟩

/-- A path that leads to something other than a folder, and has an extension, ends in a name. -/
theorem exists_name {files : FileSystem} {cwd place : Place} {path : Path}
    (leads : files.locate cwd path = .ok place) (free : files.find? place ≠ some .folder)
    (file : namesFolder path = false) {extension : List Char}
    (known : path.extension? = some extension) :
    ∃ start name, Leading start ∧ IsName name ∧ path = start ++ name := by
  obtain ⟨start, name, leading, inner, rfl⟩ := Path.exists_leading path
  refine ⟨start, name, leading, ⟨inner, ?_, ?_, ?_⟩, rfl⟩
  · rintro rfl
    rcases leading with rfl | ⟨folder, rfl⟩
    · simp [locate] at leads
    · simp [namesFolder] at file
  · rintro rfl
    have here : ∀ folder, files.follow folder [['.']] = .ok place →
        files.find? place = some .folder := by
      intro folder ends
      rw [follow] at ends
      cases known : files.find? folder with
      | none => simp [known] at ends
      | some item => cases item <;> simp_all [follow]
    rw [locate, parts_name leading inner (by simp), follow_append] at leads
    split at leads
    · cases leads
    · split at leads
      · cases leads
      · cases before : files.follow (if (start ++ ['.']).isAbsolute then [] else cwd) (parts start) with
        | error e => simp [before, Except.bind] at leads
        | ok folder => exact free (here folder (by simpa [before, Except.bind] using leads))
  · rintro rfl
    have last : Path.fileName? (start ++ ['.', '.']).components = none := by
      rw [Path.components_leading leading inner (by simp)]
      simp [Path.fileName?, Path.componentOf?]
    simp [Path.extension?, last] at known

end FileSystem

namespace Path

theorem splitName_append {stem extension : List Char} (some : stem ≠ [])
    (last : '.' ∉ extension) :
    splitName (stem ++ '.' :: extension) = (stem, .some extension) := by
  have plain : ∀ c ∈ extension.reverse, decide (c ≠ '.') = true := by
    intro c member
    have apart : c ≠ '.' := fun same => last (same ▸ List.mem_reverse.mp member)
    simpa using apart
  have backwards : (stem ++ '.' :: extension).reverse = extension.reverse ++ '.' :: stem.reverse := by
    simp
  obtain ⟨c, rest, rfl⟩ := List.exists_cons_of_ne_nil some
  rw [splitName, lastDot, List.span_eq_takeWhile_dropWhile, backwards,
    List.takeWhile_append_of_pos plain, List.dropWhile_append_of_pos plain]
  simp

theorem eq_of_lastDot {name before after : List Char} (known : lastDot name = some (before, after)) :
    name = before ++ '.' :: after := by
  have whole : name.reverse.takeWhile (fun c => decide (c ≠ '.')) ++
      name.reverse.dropWhile (fun c => decide (c ≠ '.')) = name.reverse :=
    List.takeWhile_append_dropWhile
  have stops := List.head?_dropWhile_not (fun c : Char => decide (c ≠ '.')) name.reverse
  rw [lastDot, List.span_eq_takeWhile_dropWhile] at known
  generalize name.reverse.takeWhile (fun c => decide (c ≠ '.')) = ending at *
  generalize name.reverse.dropWhile (fun c => decide (c ≠ '.')) = rest at *
  cases rest with
  | nil => cases known
  | cons c rest =>
    have dot : c = '.' := by simpa using stops
    obtain ⟨rfl, rfl⟩ := Prod.mk.inj (Option.some.inj known)
    rw [← List.reverse_reverse name, ← whole, dot]
    simp

theorem eq_of_splitName {name stem extension : List Char}
    (known : splitName name = (stem, some extension)) :
    name = stem ++ '.' :: extension ∧ stem ≠ [] := by
  unfold splitName at known
  split at known
  · next c before after found =>
    obtain ⟨rfl, same⟩ := Prod.mk.inj known
    obtain rfl := Option.some.inj same
    exact ⟨eq_of_lastDot found, List.cons_ne_nil c before⟩
  · cases known

end Path

theorem isName_append {stem extension : List Char} (some : stem ≠ []) (inner : '/' ∉ stem)
    (other : '/' ∉ extension) (last : extension ≠ []) : IsName (stem ++ '.' :: extension) := by
  have long : 3 ≤ (stem ++ '.' :: extension).length := by
    have first := List.length_pos_iff.mpr some
    have second := List.length_pos_iff.mpr last
    rw [List.length_append, List.length_cons]
    omega
  refine ⟨?_, ?_, ?_, ?_⟩
  · simp [inner, other]
  · simp
  · intro same
    rw [same, List.length_singleton] at long
    omega
  · intro same
    rw [same] at long
    exact absurd long (by decide)

namespace Path

theorem stem?_name {start : Path} (leading : Leading start) {stem extension : List Char}
    (isName : IsName (stem ++ '.' :: extension)) (some : stem ≠ []) (last : '.' ∉ extension) :
    stem? (start ++ (stem ++ '.' :: extension)) = .some stem := by
  rw [stem?, fileName?_name leading isName, Option.map_some, splitName_append some last]

theorem extension?_name {start : Path} (leading : Leading start) {stem extension : List Char}
    (isName : IsName (stem ++ '.' :: extension)) (some : stem ≠ []) (last : '.' ∉ extension) :
    extension? (start ++ (stem ++ '.' :: extension)) = .some extension := by
  rw [extension?, fileName?_name leading isName, Option.bind_some, splitName_append some last]

end Path

end PageTree
