import PageTree.Files.FileSystem

/-!
What paths lead to when files change. A path is followed through folders only. What the program does
to files keeps all folders, so a path that leads somewhere goes on leading there, and reads as before
unless the very file at its end is written.
-/

namespace PageTree.FileSystem

theorem find?_put {files : FileSystem} {place : Place} (proper : place ≠ []) (item : FileItem)
    (other : Place) : (files.put place item).find? other =
      if other = place then some item else files.find? other := by
  split
  · next same => rw [same, find?_put_self files item proper]
  · next apart =>
    have kept : ∀ items : List (Place × FileItem),
        (items.filter fun entry => entry.1 ≠ place).lookup other = items.lookup other := by
      intro items
      induction items with
      | nil => rfl
      | cons entry items ih =>
        by_cases here : entry.1 = place
        · have other : (other == entry.1) = false := by simpa [here] using apart
          rw [List.filter_cons_of_neg (by simpa using here), ih, List.lookup_cons, other]
        · rw [List.filter_cons_of_pos (by simpa using here), List.lookup_cons, List.lookup_cons, ih]
    have last : List.lookup other [(place, item)] = none := by
      have differs : (other == place) = false := by simpa using apart
      rw [List.lookup_cons, differs]
      rfl
    rw [find?, find?, put, List.lookup_append, kept, last, Option.or_none]

theorem ne_nil_of_find? {files : FileSystem} {place : Place}
    (free : files.find? place ≠ some .folder) : place ≠ [] := by
  rintro rfl
  exact free rfl

theorem follow_append (files : FileSystem) (place : Place) (parts others : List (List Char)) :
    files.follow place (parts ++ others) =
      (files.follow place parts).bind fun inner => files.follow inner others := by
  induction parts generalizing place with
  | nil => rfl
  | cons part parts ih =>
    rw [List.cons_append, follow, follow]
    cases files.find? place with
    | none => rfl
    | some item =>
      cases item with
      | file content => rfl
      | folder =>
        simp only [ih]
        split
        · rfl
        · split <;> rfl

theorem follow_name {files : FileSystem} {place target : Place} {parts : List (List Char)}
    {name : List Char} (dot : name ≠ ['.']) (dots : name ≠ ['.', '.']) :
    files.follow place (parts ++ [name]) = .ok target ↔ ∃ folder,
      files.follow place parts = .ok folder ∧ files.find? folder = some .folder ∧
        target = folder ++ [name] := by
  have last : ∀ folder, files.follow folder [name] = .ok target ↔
      files.find? folder = some .folder ∧ target = folder ++ [name] := by
    intro folder
    rw [follow]
    cases files.find? folder with
    | none => simp
    | some item => cases item <;> simp [dot, dots, follow, eq_comm]
  rw [follow_append]
  cases files.follow place parts with
  | error e => simp [Except.bind]
  | ok folder => simpa [Except.bind] using last folder

def Keeps (files others : FileSystem) : Prop :=
  ∀ place, files.find? place = some .folder → others.find? place = some .folder

theorem Keeps.follow {files others : FileSystem} (keeps : Keeps files others) {place target : Place}
    {parts : List (List Char)} (leads : files.follow place parts = .ok target) :
    others.follow place parts = .ok target := by
  induction parts generalizing place with
  | nil => exact leads
  | cons part parts ih =>
    rw [FileSystem.follow] at leads ⊢
    cases known : files.find? place with
    | none => simp [known] at leads
    | some item =>
      cases item with
      | file content => simp [known] at leads
      | folder =>
        rw [keeps place known]
        simp only [known] at leads ⊢
        split
        · next dot => exact ih (by rwa [if_pos dot] at leads)
        · next dot =>
          rw [if_neg dot] at leads
          split
          · next dots => exact ih (by rwa [if_pos dots] at leads)
          · next dots => exact ih (by rwa [if_neg dots] at leads)

theorem Keeps.locate {files others : FileSystem} (keeps : Keeps files others) {cwd place : Place}
    {path : Path} (leads : files.locate cwd path = .ok place) :
    others.locate cwd path = .ok place := by
  unfold FileSystem.locate at leads ⊢
  split at leads
  · cases leads
  · next plain =>
    split at leads
    · cases leads
    · next some =>
      rw [if_neg plain, if_neg some]
      exact keeps.follow leads

theorem Keeps.readText {files others : FileSystem} (keeps : Keeps files others) {cwd place : Place}
    {path : Path} (leads : files.locate cwd path = .ok place)
    (same : others.find? place = files.find? place) :
    others.readText cwd path = files.readText cwd path := by
  rw [FileSystem.readText, FileSystem.readText, lookup, lookup, leads, keeps.locate leads]
  simp only [bind, Except.bind, same]

theorem exists_of_readText {files : FileSystem} {cwd : Place} {path : Path} {text : String}
    (read : files.readText cwd path = .ok text) : ∃ place, files.locate cwd path = .ok place ∧
      files.find? place = some (.file (some text)) ∧ namesFolder path = false := by
  unfold readText lookup at read
  cases leads : files.locate cwd path with
  | error e => simp [leads, bind, Except.bind] at read
  | ok place =>
    simp only [leads, bind, Except.bind] at read
    cases known : files.find? place with
    | none => simp [known] at read
    | some item =>
      cases item with
      | folder => simp [known] at read
      | file content =>
        cases folder : namesFolder path with
        | true => simp [known, folder] at read
        | false =>
          cases content with
          | none => simp [known, folder] at read
          | some found =>
            simp [known, folder] at read
            exact ⟨place, rfl, by rw [known, read], rfl⟩

theorem readText_of_find? {files : FileSystem} {cwd place : Place} {path : Path} {text : String}
    (leads : files.locate cwd path = .ok place) (named : namesFolder path = false)
    (known : files.find? place = some (.file (some text))) :
    files.readText cwd path = .ok text := by
  simp [readText, lookup, leads, bind, Except.bind, known, named]

theorem keeps_put {files : FileSystem} {place : Place} (free : files.find? place ≠ some .folder)
    (item : FileItem) : Keeps files (files.put place item) := by
  intro other known
  have apart : other ≠ place := fun same => free (same ▸ known)
  rw [find?_put (ne_nil_of_find? free), if_neg apart, known]

theorem put_put (files : FileSystem) (place : Place) (first last : FileItem) :
    (files.put place first).put place last = files.put place last := by
  simp [put, List.filter_append, List.filter_filter]

section Disk

variable {files : FileSystem} {disk : Disk} {place : Place} {text : String}

/-- A file with one name is changed under that name. -/
theorem hold_eq_put (unlinked : disk.linked = []) (content : Option String) :
    files.hold disk place content = files.put place (.file content) := by
  rw [hold, Disk.names, unlinked]
  rfl

theorem create_eq_ok_iff (unlinked : disk.linked = []) {cwd : Place} {path : Path}
    {created : FileSystem} : files.create disk cwd path = .ok (place, created) ↔
      files.locate cwd path = .ok place ∧ files.find? place ≠ some .folder ∧
        namesFolder path = false ∧ disk.refuses? place = none ∧
        created = files.put place (.file (some "")) := by
  unfold create
  cases files.locate cwd path with
  | error e => simp [bind, Except.bind]
  | ok target =>
    simp only [bind, Except.bind, hold_eq_put unlinked, Except.ok.injEq]
    constructor
    · intro done
      split at done
      · cases done
      · next free =>
        split at done
        · cases done
        · next named =>
          split at done
          · cases done
          · next allowed =>
            cases done
            exact ⟨rfl, free, Bool.eq_false_iff.mpr named, allowed, rfl⟩
    · rintro ⟨rfl, free, named, allowed, rfl⟩
      split
      · next folder => exact absurd folder free
      · rw [named, allowed]
        rfl

theorem write_whole (unlinked : disk.linked = []) (whole : disk.breaksOff? place text = none) :
    files.write disk place text = (files.put place (.file (some text)), none) := by
  rw [write, whole]
  exact Prod.ext (hold_eq_put unlinked _) rfl

theorem write_brokenOff (unlinked : disk.linked = []) {count : Nat} {cause : FileError}
    (broken : disk.breaksOff? place text = some (count, cause)) :
    files.write disk place text =
      (files.put place (.file ((firstBytes count text.toList).map String.ofList)), some cause) := by
  rw [write, broken]
  exact Prod.ext (hold_eq_put unlinked _) rfl

end Disk

/-- The other files have more folders, and are the same apart from these. -/
def Grows (files others : FileSystem) : Prop :=
  ∀ place, others.find? place = files.find? place ∨
    files.find? place = none ∧ others.find? place = some .folder

theorem Grows.refl (files : FileSystem) : Grows files files := fun _ => .inl rfl

theorem Grows.trans {files others last : FileSystem} (first : Grows files others)
    (second : Grows others last) : Grows files last := by
  intro place
  rcases first place with same | ⟨none, folder⟩
  · rcases second place with still | ⟨free, made⟩
    · exact .inl (still.trans same)
    · exact .inr ⟨same ▸ free, made⟩
  · rcases second place with still | ⟨free, -⟩
    · exact .inr ⟨none, still.trans folder⟩
    · exact absurd (free.symm.trans folder) nofun

theorem Grows.keeps {files others : FileSystem} (grows : Grows files others) :
    Keeps files others := by
  intro place known
  rcases grows place with same | ⟨none, -⟩
  · exact same.trans known
  · exact absurd (none.symm.trans known) nofun

theorem Grows.find?_of_some {files others : FileSystem} (grows : Grows files others)
    {place : Place} {item : FileItem} (known : files.find? place = some item) :
    others.find? place = some item := by
  rcases grows place with same | ⟨none, -⟩
  · exact same.trans known
  · exact absurd (none.symm.trans known) nofun

theorem Grows.readText {files others : FileSystem} (grows : Grows files others) {cwd : Place}
    {path : Path} {text : String} (read : files.readText cwd path = .ok text) :
    others.readText cwd path = .ok text := by
  obtain ⟨place, leads, known, -⟩ := exists_of_readText read
  rw [grows.keeps.readText leads ((grows.find?_of_some known).trans known.symm), read]

theorem exists_of_makeFolder {files made : FileSystem} {cwd : Place} {path : Path}
    (done : files.makeFolder cwd path = .ok made) : ∃ place, files.locate cwd path = .ok place ∧
      files.find? place = none ∧ made = files.put place .folder := by
  unfold makeFolder at done
  cases leads : files.locate cwd path with
  | error e => simp [leads, bind, Except.bind] at done
  | ok place =>
    simp only [leads, bind, Except.bind] at done
    cases known : files.find? place with
    | some item => simp [known] at done
    | none =>
      simp only [known] at done
      exact ⟨place, rfl, known, (Except.ok.inj done).symm⟩

theorem grows_makeFolder {files made : FileSystem} {cwd : Place} {path : Path}
    (done : files.makeFolder cwd path = .ok made) : Grows files made := by
  obtain ⟨place, -, known, rfl⟩ := exists_of_makeFolder done
  have free : files.find? place ≠ some .folder := by simp [known]
  intro other
  rw [find?_put (ne_nil_of_find? free)]
  split
  · next same => exact .inr ⟨same ▸ known, rfl⟩
  · exact .inl rfl

/-- What making one folder keeps, making all folders on the way keeps, whether or not the last one can
be made. Each step goes to the parent. -/
theorem keeps_makeFolders {cwd : Place} (Kept : FileSystem → Prop) (Asked : Path → Prop)
    (parents : ∀ {path parent : Path}, path.parent? = some parent → Asked path → Asked parent)
    (kept : ∀ {path : Path} {files made : FileSystem}, Asked path →
      files.makeFolder cwd path = .ok made → Kept files → Kept made)
    {steps : Nat} {files : FileSystem} {path : Path} (asked : Asked path) (first : Kept files) :
    Kept (makeFolders cwd steps files path).1 := by
  induction steps generalizing files path with
  | zero => exact first
  | succ steps ih =>
    have there : ∀ (present : FileSystem) (e : FileError), (if present.isFolder cwd path
        then (present, none) else (present, some e)).1 = present := by
      intro present e
      split <;> rfl
    rw [makeFolders]
    split
    · exact first
    · split
      · next done => exact kept asked done first
      · split
        · exact first
        · next parent known =>
          have outer := ih (parents known asked) first
          split
          · next same => exact same ▸ outer
          · next grown same =>
            rw [same] at outer
            split
            · next done => exact kept asked done outer
            · rwa [there]
      · rwa [there]

theorem grows_foldersMade (files : FileSystem) (cwd : Place) (path : Path) :
    Grows files (files.foldersMade cwd path) :=
  keeps_makeFolders (Grows files) (fun _ => True) (fun _ asked => asked)
    (fun _ done grows => grows.trans (grows_makeFolder done)) trivial (.refl files)

theorem foldersMade_of_ok {files made : FileSystem} {cwd : Place} {path : Path}
    (done : files.makeFolderAll cwd path = .ok made) : files.foldersMade cwd path = made := by
  rw [makeFolderAll] at done
  rw [foldersMade]
  split at done
  · next same => rw [same]; exact Except.ok.inj done
  · cases done

theorem grows_makeFolderAll {files made : FileSystem} {cwd : Place} {path : Path}
    (done : files.makeFolderAll cwd path = .ok made) : Grows files made :=
  foldersMade_of_ok done ▸ grows_foldersMade files cwd path

end PageTree.FileSystem
