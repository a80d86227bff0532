import Mathlib.Data.List.Chain
import Mathlib.Data.List.TakeDrop
import PageTree.Proofs.Files.Naming
import PageTree.Site.Url

/-!
Where addresses lead. A path is followed from a folder segment by segment: `..` leads out of a
folder, a dot or an empty segment leads nowhere, and any other segment leads into a folder of that
name. The route from a folder to a path, followed from that folder, ends where the path does when it
is followed from the root of the site.
-/

namespace PageTree.Url

def enter (folder : List (List Char)) (segment : List Char) : List (List Char) :=
  if segment = ['.', '.'] then folder.dropLast
  else if segment = [] ∨ segment = ['.'] then folder
  else folder ++ [segment]

/-- The folder that a path leads to, seen from a folder. -/
def follow (folder : List (List Char)) (path : List Char) : List (List Char) :=
  (path.splitOn '/').foldl enter folder

/-- A segment that is not empty and not two. -/
def Whole (segment : List Char) : Prop := '/' ∉ segment ∧ segment ≠ []

theorem whole_segments (path : List Char) : ∀ segment ∈ segments path, Whole segment := by
  intro segment member
  obtain ⟨inPath, some⟩ := List.mem_filter.mp member
  exact ⟨(Path.of_mem_splitOn inPath).1, by simpa using some⟩

theorem segments_nil : segments [] = [] := by
  rw [segments, List.splitOn_nil]
  rfl

theorem segments_slash (front back : List Char) :
    segments (front ++ '/' :: back) = segments front ++ segments back := by
  rw [segments, List.splitOn_append_cons_self, List.filter_append, segments, segments]

theorem segments_closed (path : List Char) : segments (path ++ ['/']) = segments path := by
  rw [segments_slash, segments_nil, List.append_nil]

theorem segments_joinSegments {parts : List (List Char)} (each : ∀ part ∈ parts, Whole part) :
    segments (joinSegments parts) = parts := by
  by_cases none : parts = []
  · rw [none, joinSegments]
    exact segments_nil
  · have inner : ∀ part ∈ parts, '/' ∉ part := fun part member => (each part member).1
    rw [segments, joinSegments, List.splitOn_intercalate '/' inner none]
    apply List.filter_eq_self.mpr
    intro part member
    simpa using (each part member).2

theorem climb_succ (n : Nat) : climb (n + 1) = ['.', '.'] ++ '/' :: climb n := by
  rw [climb, List.replicate_succ, List.flatten_cons, climb]
  rfl

theorem segments_climb (n : Nat) (rest : List Char) :
    segments (climb n ++ rest) = List.replicate n ['.', '.'] ++ segments rest := by
  induction n with
  | zero => rfl
  | succ n ih =>
    have out : segments ['.', '.'] = [['.', '.']] := by decide
    have first : climb (n + 1) ++ rest = ['.', '.'] ++ '/' :: (climb n ++ rest) := by
      rw [climb_succ]
      rfl
    rw [first, segments_slash, ih, out, List.replicate_succ]
    rfl

theorem follow_eq (folder : List (List Char)) (path : List Char) :
    follow folder path = (segments path).foldl enter folder := by
  have skip : ∀ parts : List (List Char), parts.foldl enter folder =
      (parts.filter fun part => !part.isEmpty).foldl enter folder := by
    intro parts
    induction parts generalizing folder with
    | nil => rfl
    | cons part parts ih =>
      cases part with
      | nil => exact ih folder
      | cons c part => exact ih (enter folder (c :: part))
  exact skip (path.splitOn '/')

theorem enter_name {name : List Char} (isName : IsName name) (folder : List (List Char)) :
    enter folder name = folder ++ [name] := by
  rw [enter, if_neg isName.dots, if_neg (not_or.mpr ⟨isName.some, isName.dot⟩)]

theorem foldl_enter_names {names : List (List Char)} (each : ∀ name ∈ names, IsName name)
    (folder : List (List Char)) : names.foldl enter folder = folder ++ names := by
  induction names generalizing folder with
  | nil => exact (List.append_nil folder).symm
  | cons name names ih =>
    obtain ⟨first, rest⟩ := List.forall_mem_cons.mp each
    rw [List.foldl_cons, enter_name first, ih rest, List.append_assoc, List.singleton_append]

theorem foldl_enter_up (n : Nat) (folder : List (List Char)) :
    (List.replicate n ['.', '.']).foldl enter folder = folder.take (folder.length - n) := by
  induction n generalizing folder with
  | zero => exact (List.take_length).symm
  | succ n ih =>
    have out : enter folder ['.', '.'] = folder.dropLast := if_pos rfl
    rw [List.replicate_succ, List.foldl_cons, out, ih, List.length_dropLast,
      List.dropLast_eq_take, List.take_take]
    congr 1
    omega

theorem sharedLength_le (first second : List (List Char)) :
    sharedLength first second ≤ first.length := by
  fun_induction sharedLength first second with
  | case1 first others more ih => simpa using ih
  | case2 => exact Nat.zero_le _
  | case3 => exact Nat.zero_le _

theorem take_sharedLength (first second : List (List Char)) :
    first.take (sharedLength first second) = second.take (sharedLength first second) := by
  fun_induction sharedLength first second with
  | case1 first others more ih => rw [List.take_succ_cons, List.take_succ_cons, ih]
  | case2 => rfl
  | case3 => rfl

/-- The segments of a route: out of what is not shared, and down the rest of the target. -/
def steps (folder target : List (List Char)) : List (List Char) :=
  List.replicate (folder.length - sharedLength folder target) ['.', '.']
    ++ target.drop (sharedLength folder target)

theorem foldl_steps {folder : List (List Char)} (names : ∀ name ∈ folder, IsName name)
    (target : List (List Char)) :
    (steps folder target).foldl enter folder = target.foldl enter [] := by
  have shared := take_sharedLength folder target
  have bound := sharedLength_le folder target
  have front : ∀ name ∈ target.take (sharedLength folder target), IsName name := by
    intro name member
    rw [← shared] at member
    exact names name (List.mem_of_mem_take member)
  have left : folder.length - (folder.length - sharedLength folder target) =
      sharedLength folder target := by omega
  calc (steps folder target).foldl enter folder
      = (target.drop (sharedLength folder target)).foldl enter
          (target.take (sharedLength folder target)) := by
        rw [steps, List.foldl_append, foldl_enter_up, left, shared]
    _ = (target.take (sharedLength folder target)
          ++ target.drop (sharedLength folder target)).foldl enter [] := by
        rw [List.foldl_append, foldl_enter_names front, List.nil_append]
    _ = target.foldl enter [] := by rw [List.take_append_drop]

def way (folder target : List (List Char)) : List Char :=
  climb (folder.length - sharedLength folder target)
    ++ joinSegments (target.drop (sharedLength folder target))

theorem segments_way (folder : List (List Char)) {target : List (List Char)}
    (each : ∀ part ∈ target, Whole part) : segments (way folder target) = steps folder target := by
  have rest : ∀ part ∈ target.drop (sharedLength folder target), Whole part :=
    fun part member => each part (List.mem_of_mem_drop member)
  rw [way, segments_climb, segments_joinSegments rest, steps]

theorem route_cases (folder : List (List Char)) (path : List Char) :
    route folder path = way folder (segments path) ∧ way folder (segments path) ≠ [] ∨
      route folder path = way folder (segments path) ++ ['/'] ∧
        (segments path).drop (sharedLength folder (segments path)) ≠ [] ∨
      route folder path = ['.', '/'] ∧ way folder (segments path) = [] := by
  rw [route, ← way]
  split
  · next closes =>
    right
    left
    refine ⟨by simp, ?_⟩
    rw [Ne, List.drop_eq_nil_iff]
    omega
  · by_cases none : way folder (segments path) = []
    · exact .inr (.inr ⟨by simp [none], none⟩)
    · exact .inl ⟨by simp [none], none⟩

theorem follow_route_eq (base folder : List (List Char)) (path : List Char) :
    follow base (route folder path) = (steps folder (segments path)).foldl enter base := by
  have whole := segments_way folder (whole_segments path)
  rw [follow_eq]
  rcases route_cases folder path with ⟨same, -⟩ | ⟨same, -⟩ | ⟨same, none⟩
  · rw [same, whole]
  · rw [same, segments_closed, whole]
  · have dot : segments ['.', '/'] = [['.']] := by decide
    rw [none, segments_nil] at whole
    rw [same, dot, ← whole]
    rfl

/-- The route from a folder to a path leads where the path does. -/
theorem follow_route {folder : List (List Char)} (names : ∀ name ∈ folder, IsName name)
    (path : List Char) : follow folder (route folder path) = follow [] path := by
  rw [follow_route_eq, foldl_steps names, follow_eq]

theorem route_ne_nil (folder : List (List Char)) (path : List Char) : route folder path ≠ [] := by
  rcases route_cases folder path with ⟨same, some⟩ | ⟨same, -⟩ | ⟨same, -⟩
  · rw [same]
    exact some
  · simp [same]
  · simp [same]

theorem getLast?_climb (n : Nat) : (climb (n + 1)).getLast? = some '/' := by
  rw [climb, List.replicate_succ', List.flatten_append]
  simp

theorem getLast?_route (folder : List (List Char)) {path : List Char}
    (slash : path.getLast? = some '/') : (route folder path).getLast? = some '/' := by
  by_cases done : (segments path).drop (sharedLength folder (segments path)) = []
  · rcases route_cases folder path with ⟨same, some⟩ | ⟨-, rest⟩ | ⟨same, -⟩
    · rw [way, done, joinSegments, List.intercalate_nil, List.append_nil] at same some
      obtain ⟨n, more⟩ : ∃ n, folder.length - sharedLength folder (segments path) = n + 1 := by
        refine Nat.exists_eq_succ_of_ne_zero fun none => some ?_
        rw [none]
        rfl
      rw [same, more, getLast?_climb]
    · exact absurd done rest
    · rw [same]
      rfl
  · have long : 1 < path.length := by
      obtain ⟨front, rfl⟩ := List.getLast?_eq_some_iff.mp slash
      cases front with
      | nil =>
        have none : segments ['/'] = [] := by decide
        rw [List.nil_append, none, List.drop_nil] at done
        exact absurd rfl done
      | cons c front => simp
    have more : sharedLength folder (segments path) < (segments path).length := by
      rw [List.drop_eq_nil_iff] at done
      omega
    have closes : 1 < path.length ∧ path.getLast? = some '/' ∧
        sharedLength folder (segments path) < (segments path).length := ⟨long, slash, more⟩
    rw [route, ← way, if_pos closes]
    simp

def row (segments : List (List Char)) : List Char :=
  segments.flatMap fun segment => segment ++ ['/']

theorem climb_eq_row (n : Nat) : climb n = row (List.replicate n ['.', '.']) := by
  rw [climb, row, List.flatMap_def, List.map_replicate]
  rfl

theorem joinSegments_closed {parts : List (List Char)} (some : parts ≠ []) :
    joinSegments parts ++ ['/'] = row parts := by
  induction parts with
  | nil => exact absurd rfl some
  | cons first parts ih =>
    cases parts with
    | nil => rw [joinSegments, List.intercalate_singleton, row, List.flatMap_singleton]
    | cons second parts =>
      have rest := ih (List.cons_ne_nil second parts)
      rw [joinSegments] at rest ⊢
      rw [List.intercalate_cons_cons, List.append_assoc, rest]
      rfl

theorem way_prefix_row (folder target : List (List Char)) :
    way folder target <+: row (steps folder target) := by
  rw [way, climb_eq_row, steps, row, row, List.flatMap_append]
  rw [List.prefix_append_right_inj]
  by_cases none : target.drop (sharedLength folder target) = []
  · rw [none, joinSegments, List.intercalate_nil]
    exact List.nil_prefix
  · exact ⟨['/'], joinSegments_closed none⟩

theorem way_closed {folder target : List (List Char)}
    (some : target.drop (sharedLength folder target) ≠ []) :
    way folder target ++ ['/'] = row (steps folder target) := by
  rw [way, climb_eq_row, List.append_assoc, joinSegments_closed some, steps, row, row, row,
    List.flatMap_append]

theorem whole_steps (folder : List (List Char)) {target : List (List Char)}
    (each : ∀ part ∈ target, Whole part) : ∀ part ∈ steps folder target, Whole part := by
  intro part member
  rcases List.mem_append.mp member with up | down
  · rw [List.eq_of_mem_replicate up]
    exact ⟨by decide, by decide⟩
  · exact each part (List.mem_of_mem_drop down)

theorem exists_row (folder : List (List Char)) (path : List Char) :
    ∃ segments, (∀ segment ∈ segments, Whole segment) ∧
      (∀ segment ∈ segments, ∀ c ∈ segment, c = '.' ∨ c ∈ path) ∧
        route folder path <+: row segments := by
  have whole := whole_steps folder (whole_segments path)
  have known : ∀ segment ∈ steps folder (segments path), ∀ c ∈ segment, c = '.' ∨ c ∈ path := by
    intro segment member c inside
    rcases List.mem_append.mp member with up | down
    · rw [List.eq_of_mem_replicate up] at inside
      exact .inl (by simpa using inside)
    · have inPath := (List.mem_filter.mp (List.mem_of_mem_drop down)).1
      exact .inr ((Path.of_mem_splitOn inPath).2 inside)
  rcases route_cases folder path with ⟨same, -⟩ | ⟨same, some⟩ | ⟨same, -⟩
  · exact ⟨_, whole, known, same ▸ way_prefix_row folder _⟩
  · exact ⟨_, whole, known, (same.trans (way_closed some)) ▸ List.prefix_rfl⟩
  · refine ⟨[['.']], ?_, ?_, ?_⟩
    · exact List.forall_mem_singleton.mpr ⟨by decide, by decide⟩
    · exact List.forall_mem_singleton.mpr fun c inside => .inl (List.mem_singleton.mp inside)
    · rw [same]
      decide

theorem head?_row {segments : List (List Char)} (whole : ∀ segment ∈ segments, Whole segment) :
    (row segments).head? ≠ some '/' := by
  cases segments with
  | nil => simp [row]
  | cons segment segments =>
    obtain ⟨inner, some⟩ := whole segment List.mem_cons_self
    obtain ⟨c, rest, rfl⟩ := List.exists_cons_of_ne_nil some
    rw [row, List.flatMap_cons, List.cons_append, List.cons_append, List.head?_cons]
    exact fun same => inner (Option.some.inj same ▸ List.mem_cons_self)

theorem isChain_row {segments : List (List Char)} (whole : ∀ segment ∈ segments, Whole segment) :
    (row segments).IsChain fun a b => a = '/' → b ≠ '/' := by
  induction segments with
  | nil => exact List.IsChain.nil
  | cons segment segments ih =>
    obtain ⟨first, rest⟩ := List.forall_mem_cons.mp whole
    have plain : segment.IsChain fun a b => a = '/' → b ≠ '/' := by
      apply List.Pairwise.isChain
      apply List.pairwise_of_forall_mem_list
      exact fun a member b _ slash => absurd (slash ▸ member) first.1
    rw [row, List.flatMap_cons, List.append_assoc, List.isChain_append]
    refine ⟨plain, ?_, ?_⟩
    · rw [List.singleton_append, List.isChain_cons]
      exact ⟨fun b head _ slash => head?_row rest (slash ▸ head), ih rest⟩
    · intro a last b _ slash
      exact absurd (slash ▸ List.mem_of_getLast? last) first.1

theorem head?_route (folder : List (List Char)) (path : List Char) :
    (route folder path).head? ≠ some '/' := by
  obtain ⟨segments, whole, -, rest, same⟩ := exists_row folder path
  obtain ⟨c, others, known⟩ := List.exists_cons_of_ne_nil (route_ne_nil folder path)
  have head := head?_row whole
  rw [← same, known] at head
  rw [known]
  exact head

theorem isChain_route (folder : List (List Char)) (path : List Char) :
    (route folder path).IsChain fun a b => a = '/' → b ≠ '/' := by
  obtain ⟨segments, whole, -, rest, same⟩ := exists_row folder path
  have chain := isChain_row whole
  rw [← same] at chain
  exact chain.left_of_append

theorem mem_route {folder : List (List Char)} {path : List Char} {c : Char}
    (member : c ∈ route folder path) : c = '/' ∨ c = '.' ∨ c ∈ path := by
  obtain ⟨segments, -, known, start⟩ := exists_row folder path
  obtain ⟨segment, inRow, inside⟩ := List.mem_flatMap.mp (start.subset member)
  rcases List.mem_append.mp inside with here | slash
  · exact .inr (known segment inRow c here)
  · exact .inl (List.mem_singleton.mp slash)

theorem splitSuffix_eq (url : List Char) : splitSuffix url =
    (url.takeWhile fun c => !startsSuffix c, url.dropWhile fun c => !startsSuffix c) :=
  List.span_eq_takeWhile_dropWhile _ url

theorem plain_splitSuffix {url : List Char} {c : Char} (member : c ∈ (splitSuffix url).1) :
    startsSuffix c = false := by
  rw [splitSuffix_eq] at member
  have all := List.all_eq_true.mp List.all_takeWhile c member
  simpa using all

theorem starts_splitSuffix {url : List Char} {c : Char} (head : c ∈ (splitSuffix url).2.head?) :
    startsSuffix c = true := by
  rw [splitSuffix_eq] at head
  have stops := List.head?_dropWhile_not (fun c => !startsSuffix c) url
  rw [Option.mem_def.mp head] at stops
  simpa using stops

theorem splitSuffix_append {path suffix : List Char} (plain : ∀ c ∈ path, startsSuffix c = false)
    (starts : ∀ c ∈ suffix.head?, startsSuffix c = true) :
    splitSuffix (path ++ suffix) = (path, suffix) := by
  have all : ∀ c ∈ path, (!startsSuffix c) = true := by
    intro c member
    rw [plain c member]
    rfl
  rw [splitSuffix_eq, List.takeWhile_append_of_pos all, List.dropWhile_append_of_pos all]
  cases suffix with
  | nil => simp
  | cons c suffix =>
    rw [List.takeWhile_cons, List.dropWhile_cons, starts c rfl]
    simp

theorem isRooted_iff {url : List Char} :
    isRooted url = true ↔ ['/'] <+: url ∧ ¬ ['/', '/'] <+: url := by
  unfold isRooted
  split
  · simp
  · next rest other =>
    cases rest with
    | nil => simp
    | cons c rest =>
      have slash : '/' ≠ c := fun same => other rest (by rw [← same])
      simp [slash]
  · next _ other =>
    cases url with
    | nil => simp
    | cons c rest =>
      have slash : '/' ≠ c := fun same => other rest (by rw [← same])
      simp [slash]

theorem splitSuffix_relative {url : List Char} (rooted : isRooted url = true)
    (id index : List Char) : splitSuffix (relative url id index) =
      (route (pageFolder id index) (splitSuffix url).1, (splitSuffix url).2) := by
  have plain : ∀ c ∈ route (pageFolder id index) (splitSuffix url).1, startsSuffix c = false := by
    intro c member
    rcases mem_route member with rfl | rfl | inside
    · rfl
    · rfl
    · exact plain_splitSuffix inside
  rw [relative, if_pos rooted]
  exact splitSuffix_append plain fun _ => starts_splitSuffix

theorem relative_of_not_rooted {url : List Char} (other : isRooted url = false)
    (id index : List Char) : relative url id index = url := by
  rw [relative, other, if_neg Bool.false_ne_true]

theorem prefix_splitSuffix {front url : List Char} (plain : ∀ c ∈ front, startsSuffix c = false)
    (before : front <+: url) : front <+: (splitSuffix url).1 := by
  obtain ⟨rest, rfl⟩ := before
  have all : ∀ c ∈ front, (!startsSuffix c) = true := by
    intro c member
    rw [plain c member]
    rfl
  rw [splitSuffix_eq, List.takeWhile_append_of_pos all]
  exact List.prefix_append front _

theorem head?_relative {url : List Char} (rooted : isRooted url = true) (id index : List Char) :
    (relative url id index).head? = (route (pageFolder id index) (splitSuffix url).1).head? := by
  rw [relative, if_pos rooted]
  exact List.head?_append_of_ne_nil _ (route_ne_nil _ _)

theorem isRooted_relative (url id index : List Char) :
    isRooted (relative url id index) = false := by
  cases rooted : isRooted url with
  | false =>
    rw [relative_of_not_rooted rooted]
    exact rooted
  | true =>
    have head := head?_route (pageFolder id index) (splitSuffix url).1
    rw [← head?_relative rooted] at head
    rw [← Bool.not_eq_true, isRooted_iff]
    rintro ⟨⟨rest, same⟩, -⟩
    rw [← same] at head
    exact head rfl

/-- An address that is relative to a page is not changed any more. -/
theorem relative_relative (url id index : List Char) :
    relative (relative url id index) id index = relative url id index :=
  relative_of_not_rooted (isRooted_relative url id index) id index

end PageTree.Url

namespace PageTree

open Url

theorem isName_pageFolder {id index : List Char}
    (plain : ∀ segment ∈ id.splitOn '/', segment ≠ ['.'] ∧ segment ≠ ['.', '.']) :
    ∀ name ∈ pageFolder id index, IsName name := by
  intro name member
  rw [pageFolder] at member
  split at member
  · cases member
  · obtain ⟨inner, some⟩ := whole_segments id name member
    obtain ⟨dot, dots⟩ := plain name (List.mem_filter.mp member).1
    exact ⟨inner, some, dot, dots⟩

/-- An address that starts at the root of the site leads from the folder of a page where it leads
from the root; its suffix stays, and a slash at the end of its path. All other addresses stay as they
are. -/
theorem relativeUrl_leads (url id index : String)
    (plain : ∀ segment ∈ id.toList.splitOn '/', segment ≠ ['.'] ∧ segment ≠ ['.', '.']) :
    (['/'] <+: url.toList → ¬ ['/', '/'] <+: url.toList →
      let target := splitSuffix url.toList
      let way := splitSuffix (relativeUrl url id index).toList
      let page := if id = index then [] else (id.toList.splitOn '/').filter (· ≠ [])
      way.2 = target.2 ∧ way.1 ≠ [] ∧ way.1.head? ≠ some '/' ∧
        (target.1.getLast? = some '/' → way.1.getLast? = some '/') ∧
          follow page way.1 = follow [] target.1) ∧
      (¬ (['/'] <+: url.toList ∧ ¬ ['/', '/'] <+: url.toList) →
        relativeUrl url id index = url) := by
  constructor
  · intro starts single
    have rooted := isRooted_iff.mpr ⟨starts, single⟩
    have page : (if id = index then [] else (id.toList.splitOn '/').filter (· ≠ [])) =
        pageFolder id.toList index.toList := by
      have filled : ∀ segment : List Char, decide (segment ≠ []) = !segment.isEmpty := by
        intro segment
        cases segment <;> rfl
      simp only [pageFolder, segments, filled, String.toList_inj]
    simp only [relativeUrl, String.toList_ofList, splitSuffix_relative rooted, page]
    exact ⟨trivial, route_ne_nil _ _, head?_route _ _, getLast?_route _,
      follow_route (isName_pageFolder plain) _⟩
  · intro other
    rw [← isRooted_iff, Bool.not_eq_true] at other
    rw [relativeUrl, relative_of_not_rooted other, String.ofList_toList]

/-- The way from one page to another that lies beside it, with a detour and a query. -/
theorem relativeUrl_leads_beside :
    (∀ segment ∈ "docs/intro".toList.splitOn '/', segment ≠ ['.'] ∧ segment ≠ ['.', '.']) ∧
      follow ["docs".toList, "intro".toList]
        (splitSuffix (relativeUrl "/docs//old/../new/?q" "docs/intro" "index").toList).1 =
          ["docs".toList, "new".toList] := by
  have plain : ∀ segment ∈ "docs/intro".toList.splitOn '/',
      segment ≠ ['.'] ∧ segment ≠ ['.', '.'] := by
    decide
  have leads := (relativeUrl_leads "/docs//old/../new/?q" "docs/intro" "index" plain).1 (by decide)
    (by decide)
  exact ⟨plain, leads.2.2.2.2⟩

end PageTree
