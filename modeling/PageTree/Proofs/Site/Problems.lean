import Mathlib.Data.List.Infix
import Mathlib.Data.Nat.Find
import PageTree.Site.ConfigFile

/-!
What the check of a configuration finds and what its message says. The message is one text for all
problems; which problems it tells of can be read off the text alone, since the words for one problem
stand in no other one's. Of several blank parents it tells of the first only.
-/

namespace PageTree.Config

/-- Nothing but blanks. -/
def Blank (text : String) : Prop := ∀ c ∈ text.toList, Unicode.isBlank c = true

/-- What is wrong with a configuration. -/
def Has (config : Config) : Problem → Prop
  | .emptyIndex => Blank config.site.index
  | .emptyContent => config.site.content = []
  | .emptyParent position => ∃ parent, config.page.parents[position]? = some parent ∧ Blank parent

theorem isBlankText_iff {text : String} : isBlankText text = true ↔ Blank text := List.all_eq_true

theorem mem_problems_iff {config : Config} {problem : Problem} :
    problem ∈ config.problems ↔ config.Has problem ∧ ∀ position, problem = .emptyParent position →
      ∀ before < position, ¬ config.Has (.emptyParent before) := by
  rw [problems, List.mem_append, List.mem_append, Option.mem_toList]
  cases problem with
  | emptyIndex => simp [Has, isBlankText_iff]
  | emptyContent => simp [Has]
  | emptyParent position =>
    have others : Problem.emptyParent position ∉
        if isBlankText config.site.index then [Problem.emptyIndex] else [] := by
      split <;> simp
    have content : Problem.emptyParent position ∉
        if config.site.content = [] then [Problem.emptyContent] else [] := by
      split <;> simp
    have first : (config.page.parents.findIdx? isBlankText).map Problem.emptyParent =
        some (Problem.emptyParent position) ↔
          config.page.parents.findIdx? isBlankText = some position := by
      simp
    rw [or_iff_right (not_or.mpr ⟨others, content⟩), first, List.findIdx?_eq_some_iff_getElem]
    constructor
    · rintro ⟨inside, blank, earlier⟩
      refine ⟨⟨_, List.getElem?_eq_getElem inside, isBlankText_iff.mp blank⟩, ?_⟩
      rintro _ ⟨⟩ before less ⟨parent, found, also⟩
      obtain ⟨_, rfl⟩ := List.getElem?_eq_some_iff.mp found
      exact earlier before less (isBlankText_iff.mpr also)
    · rintro ⟨⟨parent, found, blank⟩, earlier⟩
      obtain ⟨inside, rfl⟩ := List.getElem?_eq_some_iff.mp found
      refine ⟨inside, isBlankText_iff.mpr blank, fun before less also => ?_⟩
      exact earlier position rfl before less
        ⟨_, List.getElem?_eq_getElem (less.trans inside), isBlankText_iff.mp also⟩

theorem exists_first {config : Config} {problem : Problem} (has : config.Has problem) :
    ∃ least, config.Has least ∧ ∀ position, least = .emptyParent position →
      ∀ before < position, ¬ config.Has (.emptyParent before) := by
  cases problem with
  | emptyIndex => exact ⟨.emptyIndex, has, by rintro _ ⟨⟩⟩
  | emptyContent => exact ⟨.emptyContent, has, by rintro _ ⟨⟩⟩
  | emptyParent position =>
    classical
    have some : ∃ position, config.Has (.emptyParent position) := ⟨position, has⟩
    refine ⟨.emptyParent (Nat.find some), Nat.find_spec some, ?_⟩
    rintro _ ⟨⟩ before less
    exact Nat.find_min some less

theorem check_eq (config : Config) :
    config.check = if config.problems = [] then .ok () else .error (.invalid config.problems) := by
  rw [check]
  split
  · next none => rw [none, if_pos rfl]
  · next some => rw [if_neg some]

def Problem.subject : Problem → String
  | emptyIndex => "[site] index"
  | emptyContent => "[site] content"
  | emptyParent position => "[page] parents[" ++ Terminal.number position ++ "]"

/-- Whether a text names the value that a problem is about. -/
def Names (text : String) (problem : Problem) : Prop :=
  problem.subject.toList <:+: text.toList

theorem Problem.message_eq (problem : Problem) :
    problem.message = problem.subject ++ " must not be empty" := by
  cases problem with
  | emptyIndex => rfl
  | emptyContent => rfl
  | emptyParent position => simp [message, subject, String.append_assoc]

/-- Characters that tell the words for one problem from those for another. -/
def markers : List Char := ['[', ';', 'x', 'c']

theorem not_mem_number {c : Char} (other : c.isDigit = false) (n : Nat) :
    c ∉ (Terminal.number n).toList := by
  intro member
  rw [Terminal.number, String.toList_ofList] at member
  rw [Nat.isDigit_of_mem_toDigits (by decide) (by decide) member] at other
  cases other

theorem number_injective {m n : Nat} (same : (Terminal.number m).toList = (Terminal.number n).toList) :
    m = n := by
  rw [Terminal.number, Terminal.number, String.toList_ofList, String.toList_ofList] at same
  rw [← Nat.ofDigitChars_ten_toDigits (n := m), same, Nat.ofDigitChars_ten_toDigits]

theorem not_mem_parent {c : Char} {position : Nat} (other : c.isDigit = false)
    (before : c ∉ "[page] parents[".toList) (after : c ∉ "] must not be empty".toList) :
    c ∉ (Problem.emptyParent position).message.toList := by
  rw [Problem.message, String.toList_append, String.toList_append, List.mem_append, List.mem_append]
  exact not_or.mpr ⟨not_or.mpr ⟨before, not_mem_number other position⟩, after⟩

theorem semicolon_not_mem (problem : Problem) : ';' ∉ problem.message.toList := by
  cases problem with
  | emptyIndex => decide
  | emptyContent => decide
  | emptyParent position => exact not_mem_parent (by decide) (by decide) (by decide)

theorem subject_starts (problem : Problem) : problem.subject.toList <+: problem.message.toList := by
  rw [problem.message_eq, String.toList_append]
  exact List.prefix_append _ _

theorem bracket_mem (problem : Problem) : '[' ∈ problem.subject.toList := by
  cases problem with
  | emptyIndex => decide
  | emptyContent => decide
  | emptyParent position => simp [Problem.subject, String.toList_append]

theorem eq_of_cut {c : Char} {front other back rest : List Char} (clear : c ∉ front)
    (quiet : c ∉ other) (same : front ++ c :: back = other ++ c :: rest) :
    front = other ∧ back = rest := by
  rcases List.append_eq_append_iff.mp same with ⟨between, whole, tail⟩ | ⟨between, whole, tail⟩
  · cases between with
    | nil => exact ⟨by simpa using whole.symm, (List.cons.inj tail).2⟩
    | cons d between =>
      obtain ⟨rfl, -⟩ := List.cons.inj tail
      exact absurd (by simp [whole]) quiet
  · cases between with
    | nil => exact ⟨by simpa using whole, (List.cons.inj tail).2.symm⟩
    | cons d between =>
      obtain ⟨rfl, -⟩ := List.cons.inj tail
      exact absurd (by simp [whole]) clear

/-- The positions are the same if the words for the one stand in the message for the other: the
brackets must fall on each other. -/
theorem eq_of_parent_occurs {start : List Char} (quiet : '[' ∉ start) {position other : Nat}
    (inside : (Problem.emptyParent position).subject.toList <:+:
      start ++ (Problem.emptyParent other).message.toList) : position = other := by
  obtain ⟨front, back, whole⟩ := inside
  have spelled : front ++ '[' :: ("page] parents".toList ++ '[' ::
        ((Terminal.number position).toList ++ ']' :: back)) =
      start ++ '[' :: ("page] parents".toList ++ '[' ::
        ((Terminal.number other).toList ++ ']' :: " must not be empty".toList)) := by
    simpa [Problem.subject, Problem.message, String.toList_append] using whole
  have two : List.count '[' (start ++ '[' :: ("page] parents".toList ++ '[' ::
      ((Terminal.number other).toList ++ ']' :: " must not be empty".toList))) = 2 := by
    have digits := List.count_eq_zero.mpr (not_mem_number (c := '[') (by decide) other)
    simp [List.count_append, List.count_eq_zero.mpr quiet, digits]
  have clear : '[' ∉ front := by
    rw [← spelled, List.count_append, List.count_cons_self, List.count_append,
      List.count_cons_self] at two
    exact List.count_eq_zero.mp (by omega)
  obtain ⟨-, rest⟩ := eq_of_cut clear quiet spelled
  have digits := (List.cons.inj (List.append_cancel_left rest)).2
  have ends : ∀ n, ']' ∉ (Terminal.number n).toList := not_mem_number (by decide)
  exact number_injective (eq_of_cut (ends position) (ends other) digits).1

theorem eq_of_occurs {start : List Char} (quiet : ∀ c ∈ markers, c ∉ start) {problem other : Problem}
    (inside : problem.subject.toList <:+: start ++ other.message.toList) : problem = other := by
  have marked : ∀ c ∈ markers, c ∈ problem.subject.toList → c ∈ other.message.toList := by
    intro c marker member
    exact (List.mem_append.mp (inside.subset member)).resolve_left (quiet c marker)
  cases problem with
  | emptyIndex =>
    have x := marked 'x' (by decide) (by decide)
    cases other with
    | emptyIndex => rfl
    | emptyContent => exact absurd x (by decide)
    | emptyParent position => exact absurd x (not_mem_parent (by decide) (by decide) (by decide))
  | emptyContent =>
    have c := marked 'c' (by decide) (by decide)
    cases other with
    | emptyIndex => exact absurd c (by decide)
    | emptyContent => rfl
    | emptyParent position => exact absurd c (not_mem_parent (by decide) (by decide) (by decide))
  | emptyParent position =>
    have brackets : 2 ≤ List.count '[' (Problem.emptyParent position).subject.toList := by
      simp [Problem.subject, String.toList_append, List.count_append]
    have enough := brackets.trans (inside.count_le '[')
    have none : List.count '[' start = 0 := List.count_eq_zero.mpr (quiet '[' (by decide))
    rw [List.count_append, none] at enough
    cases other with
    | emptyIndex => exact absurd enough (by decide)
    | emptyContent => exact absurd enough (by decide)
    | emptyParent other => rw [eq_of_parent_occurs (quiet '[' (by decide)) inside]

theorem infix_of_not_mem {inner front back : List Char} (none : ';' ∉ inner)
    (inside : inner <:+: front ++ ';' :: back) : inner <:+: front ∨ inner <:+: back := by
  rcases List.infix_append_iff.mp inside with within | after | ⟨first, second, rfl, ends, starts⟩
  · exact .inl within
  · rcases List.infix_cons_iff.mp after with starts | within
    · cases inner with
      | nil => exact .inl List.nil_infix
      | cons c inner =>
        obtain ⟨rfl, -⟩ := List.cons_prefix_cons.mp starts
        exact absurd List.mem_cons_self none
    · exact .inr within
  · cases second with
    | nil => exact .inl (by simpa using ends.isInfix)
    | cons c second =>
      obtain ⟨rfl, -⟩ := List.cons_prefix_cons.mp starts
      exact absurd (List.mem_append_right first List.mem_cons_self) none

theorem mem_of_occurs {start : List Char} (quiet : ∀ c ∈ markers, c ∉ start)
    {problems : List Problem} {problem : Problem} (inside : problem.subject.toList <:+:
      start ++ ("; ".intercalate (problems.map Problem.message)).toList) : problem ∈ problems := by
  have plain : ';' ∉ problem.subject.toList := fun member =>
    semicolon_not_mem problem ((subject_starts problem).subset member)
  induction problems generalizing start with
  | nil =>
    have bracket := inside.subset (bracket_mem problem)
    exact absurd (by simpa using bracket) (quiet '[' (by decide))
  | cons first problems ih =>
    cases problems with
    | nil =>
      rw [List.map_singleton, String.intercalate_singleton] at inside
      rw [eq_of_occurs quiet inside]
      exact List.mem_singleton.mpr rfl
    | cons second problems =>
      have split : start ++ ("; ".intercalate ((first :: second :: problems).map
          Problem.message)).toList = (start ++ first.message.toList) ++ ';' ::
            ([' '] ++ ("; ".intercalate ((second :: problems).map Problem.message)).toList) := by
        simp [String.intercalate_cons_cons, String.toList_append]
      rw [split] at inside
      rcases infix_of_not_mem plain inside with here | later
      · rw [eq_of_occurs quiet here]
        exact List.mem_cons_self
      · have blank : ∀ c ∈ markers, c ∉ [' '] := by simp [markers]
        exact List.mem_cons_of_mem _ (ih blank later)

theorem infix_of_mem {problems : List Problem} {problem : Problem} (member : problem ∈ problems) :
    problem.message.toList <:+: ("; ".intercalate (problems.map Problem.message)).toList := by
  induction problems with
  | nil => cases member
  | cons first problems ih =>
    cases problems with
    | nil =>
      rw [List.mem_singleton.mp member, List.map_singleton, String.intercalate_singleton]
    | cons second problems =>
      rw [List.map_cons, List.map_cons, String.intercalate_cons_cons, String.toList_append,
        String.toList_append, List.append_assoc]
      rcases List.mem_cons.mp member with rfl | later
      · exact (List.prefix_append _ _).isInfix
      · exact ((ih later).trans (List.suffix_append _ _).isInfix).trans
          (List.suffix_append _ _).isInfix

theorem names_message_iff {problems : List Problem} {problem : Problem} :
    Names (ConfigError.invalid problems).message problem ↔ problem ∈ problems := by
  have quiet : ∀ c ∈ markers, c ∉ "Config validation error: ".toList := by
    simp only [markers, List.forall_mem_cons, List.not_mem_nil, false_implies, implies_true, and_true]
    decide
  have text : (ConfigError.invalid problems).message.toList = "Config validation error: ".toList ++
      ("; ".intercalate (problems.map Problem.message)).toList := String.toList_append
  rw [Names, text]
  refine ⟨mem_of_occurs quiet, fun member => ?_⟩
  have words := (subject_starts problem).isInfix.trans (infix_of_mem member)
  exact List.infix_append_iff.mpr (.inr (.inl words))

/-- A configuration passes when nothing is wrong with it. Otherwise there is one error, whose message
names all that is wrong, except for the blank parents after the first. -/
theorem check_names (config : Config) :
    (config.check = .ok () ∧ ∀ problem, ¬ config.Has problem) ∨
      ∃ e, config.check = .error e ∧ (∃ problem, config.Has problem) ∧
        ∀ problem, Names e.message problem ↔ config.Has problem ∧
          ∀ position, problem = .emptyParent position →
            ∀ before < position, ¬ config.Has (.emptyParent before) := by
  rw [check_eq]
  by_cases none : config.problems = []
  · refine .inl ⟨if_pos none, fun problem has => ?_⟩
    obtain ⟨least, found, first⟩ := exists_first has
    exact List.not_mem_nil (none ▸ mem_problems_iff.mpr ⟨found, first⟩)
  · refine .inr ⟨_, if_neg none, ?_, fun problem => names_message_iff.trans mem_problems_iff⟩
    obtain ⟨problem, member⟩ := List.exists_mem_of_ne_nil _ none
    exact ⟨problem, (mem_problems_iff.mp member).1⟩

/-- The second of two blank parents is not named. -/
theorem check_names_first_only :
    let config : Config := { page := { parents := ["", ""] } }
    config.Has (.emptyParent 0) ∧ config.Has (.emptyParent 1) ∧
      ∃ e, config.check = .error e ∧ ¬ "parents[1]".toList <:+: e.message.toList := by
  have blank : Blank "" := by simp [Blank]
  exact ⟨⟨"", rfl, blank⟩, ⟨"", rfl, blank⟩, .invalid [.emptyParent 0], rfl, by decide +kernel⟩

end PageTree.Config
