import Mathlib.Data.List.DropRight
import PageTree.Proofs.Files.Naming

/-!
Paths without a way up. Such a path leads to a place that its text alone tells, and the folders that
are made for it are made on the way there.
-/

namespace PageTree

namespace Path

theorem intercalate_append {front back : List (List Char)} (some : front ≠ []) (others : back ≠ []) :
    ['/'].intercalate (front ++ back) = ['/'].intercalate front ++ '/' :: ['/'].intercalate back := by
  induction front with
  | nil => exact absurd rfl some
  | cons part front ih =>
    cases front with
    | nil => rw [List.singleton_append, List.intercalate_cons_of_ne_nil others,
        List.intercalate_singleton, List.append_assoc, List.singleton_append]
    | cons next front =>
      have inner := ih (List.cons_ne_nil next front)
      rw [List.cons_append] at inner ⊢
      rw [List.cons_append, List.intercalate_cons_cons, inner, List.intercalate_cons_cons]
      simp only [List.append_assoc]

theorem eq_of_front {path : Path} {front : List (List Char)} (some : front ≠ [])
    (starts : front <+: path.splitOn '/') : path = ['/'].intercalate front ∨
      ∃ rest, path = ['/'].intercalate front ++ '/' :: rest := by
  obtain ⟨back, same⟩ := starts
  have whole : ['/'].intercalate (front ++ back) = path := by
    rw [same, List.intercalate_splitOn]
  by_cases others : back = []
  · rw [others, List.append_nil] at whole
    exact .inl whole.symm
  · rw [intercalate_append some others] at whole
    exact .inr ⟨_, whole.symm⟩

theorem trimParts_starts (parts : List (List Char)) : trimParts parts <+: parts :=
  List.rdropWhile_prefix isIdle parts

theorem lead_starts (path : Path) : path.lead <+: path := by
  unfold lead
  split
  · exact ⟨_, rfl⟩
  · exact List.prefix_rfl
  · exact ⟨_, rfl⟩
  · exact List.nil_prefix

theorem isAbsolute_lead (path : Path) : path.lead.isAbsolute = path.isAbsolute := by
  unfold lead
  split
  · rfl
  · rfl
  · rfl
  · next other _ _ =>
    cases path with
    | nil => rfl
    | cons c path =>
      have slash : c ≠ '/' := by
        rintro rfl
        exact other path rfl
      rw [isAbsolute_eq, isAbsolute_eq]
      simpa using slash

end Path

namespace FileSystem

theorem parts_slash (front rest : Path) : parts (front ++ '/' :: rest) = parts front ++ parts rest := by
  rw [parts, parts, parts, List.splitOn_append_cons_self, List.filter_append]

theorem parts_lead_starts (path : Path) : parts path.lead <+: parts path := by
  unfold Path.lead
  split
  · exact List.nil_prefix
  · exact List.prefix_rfl
  · next rest =>
    have whole : parts (['.'] ++ '/' :: rest) = parts ['.'] ++ parts rest := parts_slash _ rest
    exact ⟨_, whole.symm⟩
  · exact List.nil_prefix

theorem parent_starts {path parent : Path} (known : path.parent? = some parent) :
    parent.isAbsolute = path.isAbsolute ∧ parts parent <+: parts path := by
  rw [Path.parent?] at known
  split at known
  · split at known
    · next here =>
      obtain rfl := Option.some.inj known
      exact ⟨by rw [← Path.isAbsolute_lead path, here]; rfl, List.nil_prefix⟩
    · cases known
  · obtain rfl := Option.some.inj known
    obtain ⟨rest, split⟩ := Path.lead_starts path
    have dropped : path.drop path.lead.length = rest := by
      have same := congrArg (List.drop path.lead.length) split
      rwa [List.drop_left, eq_comm] at same
    rw [dropped]
    have starts := (Path.trimParts_starts _).trans
      ((List.dropLast_prefix _).trans (Path.trimParts_starts (rest.splitOn '/')))
    generalize Path.trimParts (Path.trimParts (rest.splitOn '/')).dropLast = front at starts
    by_cases some : front = []
    · rw [some, List.intercalate_nil, List.append_nil]
      exact ⟨Path.isAbsolute_lead path, parts_lead_starts path⟩
    · rcases Path.eq_of_front some starts with whole | ⟨more, whole⟩
      · rw [← whole, split]
        exact ⟨rfl, List.prefix_rfl⟩
      · rw [whole, ← List.append_assoc] at split
        have begun : path.lead ++ ['/'].intercalate front ≠ [] := by
          intro none
          rw [none, List.nil_append] at split
          simp [← split, Path.lead] at none
        generalize path.lead ++ ['/'].intercalate front = parent at split begun
        obtain ⟨c, start, rfl⟩ := List.exists_cons_of_ne_nil begun
        rw [← split, parts_slash, Path.isAbsolute_eq, Path.isAbsolute_eq]
        exact ⟨rfl, List.prefix_append _ _⟩

/-- A path without a way up. -/
def Straight (path : Path) : Prop := ['.', '.'] ∉ parts path

def spot (cwd : Place) (path : Path) : Place :=
  (if path.isAbsolute then [] else cwd) ++ (parts path).filter fun part => part ≠ ['.']

theorem follow_straight {files : FileSystem} {place target : Place} {parts : List (List Char)}
    (straight : ['.', '.'] ∉ parts) (leads : files.follow place parts = .ok target) :
    target = place ++ parts.filter fun part => part ≠ ['.'] := by
  induction parts generalizing place with
  | nil =>
    obtain rfl := Except.ok.inj leads
    rw [List.filter_nil, List.append_nil]
  | cons part parts ih =>
    obtain ⟨dots, straight⟩ := not_or.mp (List.mem_cons.not.mp straight)
    rw [follow] at leads
    split at leads
    · cases leads
    · cases leads
    · rw [if_neg (Ne.symm dots)] at leads
      by_cases dot : part = ['.']
      · rw [if_pos dot] at leads
        rw [ih straight leads, List.filter_cons_of_neg (by simpa using dot)]
      · rw [if_neg dot] at leads
        rw [ih straight leads, List.filter_cons_of_pos (by simpa using dot), List.append_assoc]
        rfl

theorem locateFolder_straight {files : FileSystem} {cwd place : Place} {path : Path}
    (straight : Straight path) (leads : files.locateFolder cwd path = .ok place) :
    place = spot cwd path := follow_straight straight leads

theorem locate_straight {files : FileSystem} {cwd place : Place} {path : Path}
    (straight : Straight path) (leads : files.locate cwd path = .ok place) :
    place = spot cwd path := by
  rw [locate] at leads
  split at leads
  · cases leads
  · split at leads
    · cases leads
    · exact follow_straight straight leads

theorem straight_parent {path parent : Path} (known : path.parent? = some parent)
    (straight : Straight path) : Straight parent :=
  fun member => straight ((parent_starts known).2.subset member)

theorem spot_starts {cwd : Place} {path parent : Path} (known : path.parent? = some parent) :
    spot cwd parent <+: spot cwd path := by
  obtain ⟨same, starts⟩ := parent_starts known
  rw [spot, spot, same]
  exact (List.prefix_append_right_inj _).mpr (starts.filter _)

theorem find?_makeFolder {files made : FileSystem} {cwd : Place} {path : Path}
    (straight : Straight path) (done : files.makeFolder cwd path = .ok made) (other : Place) :
    made.find? other = files.find? other ∨ other <+: spot cwd path := by
  obtain ⟨place, leads, known, rfl⟩ := exists_of_makeFolder done
  have free : files.find? place ≠ some .folder := by simp [known]
  rw [find?_put (ne_nil_of_find? free)]
  split
  · next same =>
    rw [same, ← locate_straight straight leads]
    exact .inr List.prefix_rfl
  · exact .inl rfl

/-- What has been made for a path without a way up lies on its way. -/
theorem find?_foldersMade {files : FileSystem} {cwd : Place} {path : Path} (straight : Straight path)
    (other : Place) : (files.foldersMade cwd path).find? other = files.find? other ∨
      other <+: spot cwd path := by
  let kept (made : FileSystem) : Prop :=
    made.find? other = files.find? other ∨ other <+: spot cwd path
  let asked (inner : Path) : Prop := Straight inner ∧ spot cwd inner <+: spot cwd path
  have parents : ∀ {inner parent : Path}, inner.parent? = some parent → asked inner →
      asked parent := fun known ⟨straight, within⟩ =>
    ⟨straight_parent known straight, (spot_starts known).trans within⟩
  refine keeps_makeFolders kept asked parents ?_ ⟨straight, List.prefix_rfl⟩ (.inl rfl)
  rintro inner files made ⟨straight, within⟩ done (same | before)
  · rcases find?_makeFolder straight done other with still | here
    · exact .inl (still.trans same)
    · exact .inr (here.trans within)
  · exact .inr before

end FileSystem

end PageTree
