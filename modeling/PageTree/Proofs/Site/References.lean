import PageTree.Proofs.Pass.Settled

/-!
What an address that was made relative to a page is read as. It starts at no root and stays an address
within the site, so that no later run, on whatever page, touches it again. It may still be taken for an
absolute reference: if the way goes down only, and its first segment begins as a scheme does, a reader
finds a scheme there.
-/

namespace PageTree.Url

def isSchemeChar (c : Char) : Bool := c.isAlpha || c.isDigit || c = '+' || c = '-' || c = '.'

def endsPart (c : Char) : Bool := c = '/' || startsSuffix c

def firstPart (reference : List Char) : List Char := reference.takeWhile fun c => !endsPart c

/-- Whether a reference begins with a scheme and a colon, so that it is absolute. -/
def startsWithScheme (reference : List Char) : Bool :=
  match firstPart reference with
  | [] => false
  | first :: rest => first.isAlpha && (rest.dropWhile isSchemeChar).head? = some ':'

theorem firstPart_append {front back : List Char} (stops : ∀ c ∈ back.head?, endsPart c = true) :
    firstPart (front ++ back) = firstPart front := by
  have none : back.takeWhile (fun c => !endsPart c) = [] := by
    cases back with
    | nil => rfl
    | cons c back => rw [List.takeWhile_cons, stops c rfl]; rfl
  rw [firstPart, firstPart, List.takeWhile_append, none, List.append_nil]
  split
  · next whole => exact (List.takeWhile_prefix _).eq_of_length whole |>.symm
  · rfl

theorem startsWithScheme_append {front back : List Char}
    (stops : ∀ c ∈ back.head?, endsPart c = true) :
    startsWithScheme (front ++ back) = startsWithScheme front := by
  rw [startsWithScheme, firstPart_append stops, startsWithScheme]

theorem startsWithScheme_dot (rest : List Char) : startsWithScheme ('.' :: rest) = false := by
  have dot : firstPart ('.' :: rest) = '.' :: firstPart rest := rfl
  rw [startsWithScheme, dot]
  rfl

theorem sharedLength_append (folder rest : List (List Char)) :
    sharedLength folder (folder ++ rest) = folder.length := by
  induction folder with
  | nil => cases rest <;> rfl
  | cons first folder ih => rw [List.cons_append, sharedLength, if_pos rfl, ih, List.length_cons]

theorem sharedLength_eq_length_iff {folder target : List (List Char)} :
    sharedLength folder target = folder.length ↔ folder <+: target := by
  constructor
  · intro whole
    have same := take_sharedLength folder target
    rw [whole, List.take_length] at same
    exact same ▸ List.take_prefix folder.length target
  · rintro ⟨rest, rfl⟩
    exact sharedLength_append folder rest

theorem exists_climb_succ (n : Nat) : ∃ rest, climb (n + 1) = '.' :: rest :=
  ⟨_, climb_succ n⟩

theorem exists_route_of_not_prefix {folder : List (List Char)} {path : List Char}
    (out : ¬ folder <+: segments path) : ∃ rest, route folder path = '.' :: rest := by
  have bound := sharedLength_le folder (segments path)
  have less : sharedLength folder (segments path) ≠ folder.length :=
    fun whole => out (sharedLength_eq_length_iff.mp whole)
  obtain ⟨n, up⟩ : ∃ n, folder.length - sharedLength folder (segments path) = n + 1 :=
    Nat.exists_eq_succ_of_ne_zero (by omega)
  obtain ⟨rest, climbs⟩ := exists_climb_succ n
  have start : way folder (segments path) = '.' :: (rest ++
      joinSegments ((segments path).drop (sharedLength folder (segments path)))) := by
    rw [way, up, climbs, List.cons_append]
  rcases route_cases folder path with ⟨same, -⟩ | ⟨same, -⟩ | ⟨same, -⟩
  · exact ⟨_, same.trans start⟩
  · exact ⟨_, by rw [same, start, List.cons_append]⟩
  · exact ⟨_, same⟩

theorem exists_route_of_append {folder : List (List Char)} {path segment : List Char}
    {rest : List (List Char)} (down : segments path = folder ++ segment :: rest) :
    ∃ back, route folder path = segment ++ back ∧ ∀ c ∈ back.head?, endsPart c = true := by
  have shared : sharedLength folder (segments path) = folder.length := by
    rw [down, sharedLength_append]
  have start : ∃ back, way folder (segments path) = segment ++ back ∧
      ∀ c ∈ back.head?, endsPart c = true := by
    rw [way, shared, down, Nat.sub_self, List.drop_left, joinSegments]
    cases rest with
    | nil => exact ⟨[], by simp [climb], by simp⟩
    | cons second rest =>
      refine ⟨'/' :: List.intercalate ['/'] (second :: rest), ?_, by simp [endsPart]⟩
      rw [List.intercalate_cons_cons]
      simp [climb]
  obtain ⟨back, same, stops⟩ := start
  have some : way folder (segments path) ≠ [] := by
    have whole := (whole_segments path segment (by simp [down])).2
    rw [same]
    exact List.append_ne_nil_of_left_ne_nil whole back
  rcases route_cases folder path with ⟨whole, -⟩ | ⟨closed, -⟩ | ⟨-, none⟩
  · exact ⟨back, whole.trans same, stops⟩
  · refine ⟨back ++ ['/'], by rw [closed, same, List.append_assoc], ?_⟩
    cases back with
    | nil => simp [endsPart]
    | cons c back => exact stops
  · exact absurd none some

/-- A route begins with a scheme only if it leads down, and then its first segment does. -/
theorem startsWithScheme_route_iff (folder : List (List Char)) (path : List Char) :
    startsWithScheme (route folder path) = true ↔ ∃ segment rest,
      segments path = folder ++ segment :: rest ∧ startsWithScheme segment = true := by
  by_cases down : folder <+: segments path
  · obtain ⟨rest, below⟩ := down
    cases rest with
    | nil =>
      have shared : sharedLength folder (segments path) = folder.length :=
        sharedLength_eq_length_iff.mpr ⟨[], below⟩
      have here : way folder (segments path) = [] := by
        rw [way, shared, ← below]
        simp [climb, joinSegments]
      have dot : route folder path = ['.', '/'] := by
        rcases route_cases folder path with ⟨-, some⟩ | ⟨-, some⟩ | ⟨same, -⟩
        · exact absurd here some
        · rw [shared, ← below, List.append_nil, List.drop_length] at some
          exact absurd rfl some
        · exact same
      rw [dot, ← below, List.append_nil]
      refine iff_of_false (by rw [startsWithScheme_dot]; exact Bool.false_ne_true) ?_
      rintro ⟨segment, rest, more, -⟩
      simp at more
    | cons segment rest =>
      obtain ⟨back, same, stops⟩ := exists_route_of_append below.symm
      rw [same, startsWithScheme_append stops, ← below]
      constructor
      · exact fun starts => ⟨segment, rest, rfl, starts⟩
      · rintro ⟨other, others, same, starts⟩
        obtain ⟨rfl, -⟩ := List.cons.inj (List.append_cancel_left same)
        exact starts
  · obtain ⟨rest, start⟩ := exists_route_of_not_prefix down
    rw [start, startsWithScheme_dot]
    refine iff_of_false Bool.false_ne_true ?_
    rintro ⟨segment, others, below, -⟩
    exact down ⟨segment :: others, below.symm⟩

theorem startsWithScheme_relative {url : List Char} (rooted : isRooted url = true)
    (id index : List Char) : startsWithScheme (relative url id index) =
      startsWithScheme (route (pageFolder id index) (splitSuffix url).1) := by
  have stops : ∀ c ∈ (splitSuffix url).2.head?, endsPart c = true := by
    intro c head
    rw [endsPart, starts_splitSuffix head, Bool.or_true]
  rw [relative, if_pos rooted]
  exact startsWithScheme_append stops

end PageTree.Url

namespace PageTree

open Url

/-- An address that starts at the root of the site becomes one that starts at no root. It is read as
absolute just if it leads below the folder of the page, and first into a segment that begins with a
scheme. -/
theorem startsWithScheme_relativeUrl_iff {url : String} (starts : ['/'] <+: url.toList)
    (single : ¬ ['/', '/'] <+: url.toList) (id index : String) :
    let target := ((splitSuffix url.toList).1.splitOn '/').filter (· ≠ [])
    let page := if id = index then [] else (id.toList.splitOn '/').filter (· ≠ [])
    let made := (relativeUrl url id index).toList
    made.head? ≠ some '/' ∧ (startsWithScheme made = true ↔
      ∃ segment rest, target = page ++ segment :: rest ∧ startsWithScheme segment = true) := by
  have rooted := isRooted_iff.mpr ⟨starts, single⟩
  have filled : ∀ path : List Char, (path.splitOn '/').filter (· ≠ []) = segments path := by
    intro path
    refine List.filter_congr fun segment _ => ?_
    cases segment <;> rfl
  have page : (if id = index then [] else (id.toList.splitOn '/').filter (· ≠ [])) =
      pageFolder id.toList index.toList := by
    simp only [filled, pageFolder, String.toList_inj]
  intro target folder made
  simp only [made, target, folder, relativeUrl, String.toList_ofList, page, filled]
  constructor
  · rw [head?_relative rooted]
    exact head?_route _ _
  · rw [startsWithScheme_relative rooted, startsWithScheme_route_iff]

/-- One address on the page that it leads below, and on another one. -/
theorem startsWithScheme_relativeUrl_below :
    ['/'] <+: "/docs/mailto:me?at=1".toList ∧ ¬ ['/', '/'] <+: "/docs/mailto:me?at=1".toList ∧
      startsWithScheme (relativeUrl "/docs/mailto:me?at=1" "docs" "index").toList = true ∧
      startsWithScheme (relativeUrl "/docs/mailto:me?at=1" "blog" "index").toList ≠ true := by
  have starts : ['/'] <+: "/docs/mailto:me?at=1".toList := by decide
  have single : ¬ ['/', '/'] <+: "/docs/mailto:me?at=1".toList := by decide
  have below := startsWithScheme_relativeUrl_iff starts single "docs" "index"
  have beside := startsWithScheme_relativeUrl_iff starts single "blog" "index"
  refine ⟨starts, single, below.2.mpr ⟨"mailto:me".toList, [], by decide, by decide⟩, ?_⟩
  rw [Ne, beside.2]
  rintro ⟨segment, rest, same, -⟩
  have first : "docs".toList = "blog".toList := (List.cons.inj same).1
  exact absurd first (by decide)

/-- The first segment below the page is taken for a scheme. -/
theorem startsWithScheme_relativeUrl_wiki :
    ['/'] <+: "/wiki:b".toList ∧ ¬ ['/', '/'] <+: "/wiki:b".toList ∧
      relativeUrl "/wiki:b" "index" "index" = "wiki:b" ∧
      startsWithScheme (relativeUrl "/wiki:b" "index" "index").toList = true := by
  decide

namespace LinkTarget

theorem of?_eq_site_iff {url target : List Char} : of? url = some (.site target) ↔
    target = url ∧ url ≠ [] ∧ ¬ isWeb url = true ∧ url.head? ≠ some '#' := by
  constructor
  · intro site
    have inside := not_isWeb_of_site site
    unfold of? at site
    split at site
    · cases site
    · next some =>
      split at site
      · cases site
      · next other =>
        cases site
        refine ⟨rfl, some, inside, ?_⟩
        cases url with
        | nil => exact absurd rfl some
        | cons c rest => exact fun mark => other rest (by rw [Option.some.inj mark])
  · rintro ⟨rfl, some, inside, mark⟩
    cases target with
    | nil => exact absurd rfl some
    | cons c rest =>
      have other : c ≠ '#' := fun same => mark (congrArg Option.some same)
      simp [of?, inside, other]

theorem site_relative {url : List Char} (site : of? url = some (.site url)) (id index : List Char) :
    of? (relative url id index) = some (.site (relative url id index)) := by
  obtain ⟨-, some, inside, mark⟩ := of?_eq_site_iff.mp site
  refine of?_eq_site_iff.mpr ⟨rfl, ?_, not_isWeb_relative inside id index, ?_⟩
  · cases rooted : isRooted url with
    | false => rwa [relative_of_not_rooted rooted]
    | true =>
      rw [relative, if_pos rooted]
      exact List.append_ne_nil_of_left_ne_nil (route_ne_nil _ _) _
  · cases rooted : isRooted url with
    | false => rwa [relative_of_not_rooted rooted]
    | true =>
      rw [head?_relative rooted]
      intro starts
      have plain : startsSuffix '#' = false := by
        rcases mem_route (List.mem_of_mem_head? starts) with slash | dot | inPath
        · exact absurd slash (by decide)
        · exact absurd dot (by decide)
        · exact plain_splitSuffix inPath
      exact absurd plain (by decide)

end LinkTarget

/-- An address within the site stays one when it is made relative to a page. It is then the same on
every page, so that a link to it is neither rewritten nor marked by any run that makes addresses as
the site does. -/
theorem relativeUrl_stable {url : String} {target : List Char}
    (site : LinkTarget.of? url.toList = some (.site target)) (id index : String) :
    let made := relativeUrl url id index
    LinkTarget.of? made.toList = some (.site made.toList) ∧
      (∀ id' index', relativeUrl made id' index' = made) ∧
      ∀ (context : PageContext) (node : Node), context.Sited → node.url = some made →
        ∃ outcome, LinkPass.process context node = (node, outcome) ∧ outcome ≠ .external := by
  intro made
  obtain rfl := (LinkTarget.of?_eq_site_iff.mp site).1
  have stays : LinkTarget.of? made.toList = some (.site made.toList) := by
    simpa only [made, relativeUrl, String.toList_ofList] using
      LinkTarget.site_relative site id.toList index.toList
  have same : ∀ id' index', relativeUrl made id' index' = made := by
    intro id' index'
    have other : isRooted made.toList = false := by
      simpa only [made, relativeUrl, String.toList_ofList] using
        isRooted_relative url.toList id.toList index.toList
    rw [relativeUrl, relative_of_not_rooted other, String.ofList_toList]
  refine ⟨stays, same, ?_⟩
  intro context node sited known
  cases again : context.relativize? made with
  | none => exact ⟨.unchanged, by simp only [LinkPass.process, known, stays, again], by decide⟩
  | some found =>
    obtain ⟨make, page, makes, -, rfl⟩ := PageContext.relativize?_eq_some_iff.mp again
    obtain ⟨root, rfl⟩ := sited make makes
    have kept : { node with url := some (relativeUrl made page root) } = node := by
      rw [same]
      cases node
      cases known
      rfl
    exact ⟨.relativized, by simp only [LinkPass.process, known, stays, again, kept], by decide⟩

/-- An address whose segments would make one of another site if they were joined without care. -/
theorem relativeUrl_stable_http :
    let made := relativeUrl "/docs/http://x/#top" "docs" "index"
    LinkTarget.of? "/docs/http://x/#top".toList = some (.site "/docs/http://x/#top".toList) ∧
      made = "http:/x/#top" ∧ LinkTarget.of? made.toList = some (.site made.toList) ∧
      relativeUrl made "blog/new" "start" = made := by
  intro made
  have site : LinkTarget.of? "/docs/http://x/#top".toList =
      some (.site "/docs/http://x/#top".toList) := by decide
  have stable := relativeUrl_stable site "docs" "index"
  exact ⟨site, by decide, stable.1, stable.2.1 "blog/new" "start"⟩

end PageTree
