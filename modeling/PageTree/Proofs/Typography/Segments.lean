import PageTree.Proofs.Typography.Tokens

/-!
How the tokens of a text are found. A token spells its plain run and then the literal of its entity.
Tokens segment a text when they spell it, all but the last one have an entity, and no literal starts
inside a plain run, whatever stands after the run. The literals of the table begin with different
characters, so at most one of them starts at a place and every text has one segmentation.
-/

namespace PageTree.Entity

def Token.source (token : Token) : List Char := token.plain ++ (token.entity.map literal).getD []

def spell (tokens : List Token) : List Char := tokens.flatMap Token.source

/-- No literal starts at one of the first places of a text. -/
def Clear (count : Nat) (cs : List Char) : Prop := ∀ place < count, ¬ Starts (cs.drop place)

/-- Tokens that cut a text at the literals in it, from left to right. -/
structure Segments (cs : List Char) (tokens : List Token) : Prop where
  inTable : ∀ token ∈ tokens, ∀ entity ∈ token.entity, entity ∈ table
  spells : spell tokens = cs
  closed : ∀ token ∈ tokens.dropLast, token.entity ≠ none
  last : ∀ token ∈ tokens.getLast?, token.entity = none → token.plain ≠ []
  leftmost : ∀ front token back, tokens = front ++ token :: back →
    ∀ place < token.plain.length, ¬ Starts (cs.drop ((spell front).length + place))
  empty : tokens = [] ↔ cs = []

@[simp]
theorem spell_nil : spell [] = [] := rfl

theorem spell_cons (token : Token) (tokens : List Token) :
    spell (token :: tokens) = token.source ++ spell tokens := List.flatMap_cons

theorem Token.source_none (plain : List Char) : Token.source ⟨plain, none⟩ = plain :=
  List.append_nil plain

theorem Token.source_some (plain : List Char) (entity : Entity) :
    Token.source ⟨plain, some entity⟩ = plain ++ entity.literal := rfl

theorem clear_zero (cs : List Char) : Clear 0 cs := fun _ less => absurd less (Nat.not_lt_zero _)

theorem clear_cons_iff {count : Nat} {c : Char} {cs : List Char} :
    Clear (count + 1) (c :: cs) ↔ ¬ Starts (c :: cs) ∧ Clear count cs := by
  constructor
  · intro clear
    exact ⟨clear 0 (Nat.succ_pos count), fun place less => clear (place + 1) (Nat.succ_lt_succ less)⟩
  · intro parts place less
    cases place with
    | zero => exact parts.1
    | succ place => exact parts.2 place (Nat.lt_of_succ_lt_succ less)

theorem clear_length_iff {cs : List Char} : Clear cs.length cs ↔ ¬ Contains cs := by
  induction cs with
  | nil => exact iff_of_true (clear_zero []) not_contains_nil
  | cons c cs ih => rw [List.length_cons, clear_cons_iff, ih, contains_cons_iff, not_or]

/-- At most one literal starts at a place. -/
theorem eq_of_starts {first second : Entity} (firstMember : first ∈ table)
    (secondMember : second ∈ table) {cs : List Char} (firstStarts : first.literal <+: cs)
    (secondStarts : second.literal <+: cs) : first = second := by
  have apart : ∀ first ∈ table, ∀ second ∈ table,
      first.literal.head? = second.literal.head? → first = second := by
    decide
  have head : ∀ entity ∈ table, entity.literal <+: cs → entity.literal.head? = cs.head? := by
    intro entity member starts
    obtain ⟨rest, rfl⟩ := starts
    rw [List.head?_append_of_ne_nil _ (literal_ne_nil member)]
  refine apart first firstMember second secondMember ?_
  rw [head first firstMember firstStarts, head second secondMember secondStarts]

theorem matchAt_eq_some_iff {cs rest : List Char} {entity : Entity} :
    matchAt cs = some (entity, rest) ↔ entity ∈ table ∧ entity.literal ++ rest = cs := by
  constructor
  · exact matchIn_append
  · intro parts
    obtain ⟨member, whole⟩ := parts
    have starts : entity.literal <+: cs := ⟨rest, whole⟩
    cases found : matchAt cs with
    | none => exact absurd ⟨entity, member, starts⟩ (matchAt_eq_none_iff.mp found)
    | some pair =>
      obtain ⟨other, others⟩ := pair
      obtain ⟨otherMember, otherWhole⟩ := matchIn_append found
      obtain rfl := eq_of_starts member otherMember starts ⟨others, otherWhole⟩
      rw [List.append_cancel_left (whole.trans otherWhole.symm)]

theorem splitFirst_eq_some_iff {cs plain rest : List Char} {entity : Entity} :
    splitFirst cs = some (plain, entity, rest) ↔
      entity ∈ table ∧ plain ++ (entity.literal ++ rest) = cs ∧ Clear plain.length cs := by
  induction cs generalizing plain with
  | nil =>
    refine iff_of_false (by simp [splitFirst]) fun parts => ?_
    obtain ⟨member, whole, -⟩ := parts
    exact literal_ne_nil member (List.append_eq_nil_iff.mp (List.append_eq_nil_iff.mp whole).2).1
  | cons c cs ih =>
    have here : ∀ {entity rest}, matchAt (c :: cs) = some (entity, rest) → Starts (c :: cs) := by
      intro entity rest found
      obtain ⟨member, whole⟩ := matchAt_eq_some_iff.mp found
      exact ⟨entity, member, rest, whole⟩
    -- Where a literal starts the run is empty; where none does, the run goes on.
    cases found : matchAt (c :: cs) with
    | some pair =>
      obtain ⟨entity', rest'⟩ := pair
      simp only [splitFirst, found, Option.some.injEq, Prod.mk.injEq]
      constructor
      · rintro ⟨rfl, rfl, rfl⟩
        obtain ⟨member, whole⟩ := matchAt_eq_some_iff.mp found
        exact ⟨member, whole, clear_zero _⟩
      · intro parts
        obtain ⟨member, whole, clear⟩ := parts
        cases plain with
        | nil =>
          have same := found.symm.trans (matchAt_eq_some_iff.mpr ⟨member, whole⟩)
          obtain ⟨rfl, rfl⟩ := Prod.mk.inj (Option.some.inj same)
          exact ⟨rfl, rfl, rfl⟩
        | cons _ plain => exact absurd (here found) (clear_cons_iff.mp clear).1
    | none =>
      have none := matchAt_eq_none_iff.mp found
      simp only [splitFirst, found, Option.map_eq_some_iff, Prod.mk.injEq, Prod.exists]
      constructor
      · rintro ⟨plain, entity, rest, later, rfl, rfl, rfl⟩
        obtain ⟨member, whole, clear⟩ := ih.mp later
        exact ⟨member, congrArg (List.cons c) whole, clear_cons_iff.mpr ⟨none, clear⟩⟩
      · intro parts
        obtain ⟨member, whole, clear⟩ := parts
        cases plain with
        | nil => exact absurd ⟨entity, member, rest, whole⟩ none
        | cons d plain =>
          obtain ⟨rfl, further⟩ := List.cons.inj whole
          have later := ih.mpr ⟨member, further, (clear_cons_iff.mp clear).2⟩
          exact ⟨plain, entity, rest, later, rfl, rfl, rfl⟩

theorem Token.source_ne_nil {token : Token} (inTable : ∀ entity ∈ token.entity, entity ∈ table)
    (last : token.entity = none → token.plain ≠ []) : token.source ≠ [] := by
  obtain ⟨plain, entity⟩ := token
  cases entity with
  | none =>
    rw [source_none]
    exact last rfl
  | some entity =>
    rw [source_some]
    exact List.append_ne_nil_of_right_ne_nil plain (literal_ne_nil (inTable entity rfl))

namespace Segments

variable {cs rest : List Char} {token : Token} {tokens : List Token}

theorem nil_iff : Segments cs [] ↔ cs = [] := by
  constructor
  · intro segments
    exact segments.empty.mp rfl
  · rintro rfl
    exact ⟨by simp, rfl, by simp, by simp, by simp, by simp⟩

theorem tail (segments : Segments cs (token :: tokens)) : Segments (spell tokens) tokens where
  inTable := fun other member => segments.inTable other (List.mem_cons_of_mem token member)
  spells := rfl
  closed := by
    intro other member
    apply segments.closed other
    rw [List.dropLast_cons_of_ne_nil (List.ne_nil_of_mem (List.mem_of_mem_dropLast member))]
    exact List.mem_cons_of_mem token member
  last := by
    intro other isLast
    apply segments.last other
    rw [List.getLast?_cons, Option.mem_def.mp isLast, Option.getD_some, Option.mem_def]
  leftmost := by
    intro front other back same place less
    have further := segments.leftmost (token :: front) other back (congrArg _ same) place less
    rwa [← segments.spells, spell_cons, spell_cons, List.length_append, Nat.add_assoc,
      List.drop_length_add_append] at further
  empty := by
    constructor
    · rintro rfl
      rfl
    · intro spellsNothing
      cases tokens with
      | nil => rfl
      | cons other tokens =>
        rw [spell_cons, List.append_eq_nil_iff] at spellsNothing
        refine absurd spellsNothing.1 (Token.source_ne_nil ?_ fun none => ?_)
        · exact segments.inTable other (by simp)
        · cases tokens with
          | nil => exact segments.last other (by simp) none
          | cons _ _ => exact absurd none (segments.closed other (by simp))

theorem single (notEmpty : cs ≠ []) (clear : Clear cs.length cs) : Segments cs [⟨cs, none⟩] where
  inTable := by simp
  spells := by rw [spell_cons, spell_nil, List.append_nil, Token.source_none]
  closed := by simp
  last := by simpa using notEmpty
  leftmost := by
    intro front token back same place less
    rcases List.cons_eq_append_iff.mp same with ⟨rfl, here⟩ | ⟨front, rfl, later⟩
    · obtain ⟨rfl, -⟩ := List.cons.inj here
      simpa using clear place less
    · simp at later
  empty := by simp [notEmpty]

theorem cons {plain : List Char} {entity : Entity} (member : entity ∈ table)
    (whole : plain ++ (entity.literal ++ rest) = cs) (clear : Clear plain.length cs)
    (segments : Segments rest tokens) : Segments cs (⟨plain, some entity⟩ :: tokens) where
  inTable := List.forall_mem_cons.mpr ⟨by simpa using member, segments.inTable⟩
  spells := by rw [spell_cons, segments.spells, Token.source_some, List.append_assoc, whole]
  closed := by
    intro token inFront
    cases tokens with
    | nil => cases inFront
    | cons other tokens =>
      rw [List.dropLast_cons_cons] at inFront
      rcases List.mem_cons.mp inFront with rfl | later
      · exact Option.some_ne_none entity
      · exact segments.closed token later
  last := by
    intro token isLast none
    cases known : tokens.getLast? with
    | none =>
      rw [List.getLast?_cons, known, Option.getD_none] at isLast
      obtain rfl := Option.some.inj isLast
      cases none
    | some other =>
      rw [List.getLast?_cons, known, Option.getD_some] at isLast
      obtain rfl := Option.some.inj isLast
      exact segments.last other known none
  leftmost := by
    intro front token back same place less
    rcases List.cons_eq_append_iff.mp same with ⟨rfl, here⟩ | ⟨front, rfl, later⟩
    · obtain ⟨rfl, -⟩ := List.cons.inj here
      simpa using clear place less
    · have further := segments.leftmost front token back later place less
      rwa [← whole, spell_cons, Token.source_some, ← List.append_assoc, List.length_append,
        Nat.add_assoc, List.drop_length_add_append]
  empty := by
    refine iff_of_false (by simp) fun nothing => ?_
    rw [← whole, List.append_eq_nil_iff, List.append_eq_nil_iff] at nothing
    exact literal_ne_nil member nothing.2.1

/-- A segmentation is a single run without entities, or it begins where the text is split first. -/
theorem cons_cases (segments : Segments cs (token :: tokens)) :
    (token = ⟨cs, none⟩ ∧ tokens = [] ∧ splitFirst cs = none) ∨
      ∃ entity, token.entity = some entity ∧
        splitFirst cs = some (token.plain, entity, spell tokens) := by
  have clear : Clear token.plain.length cs := by
    intro place less
    simpa using segments.leftmost [] token tokens rfl place less
  have whole := segments.spells
  obtain ⟨plain, entity⟩ := token
  rw [spell_cons] at whole
  cases entity with
  | none =>
    left
    have alone : tokens = [] := by
      by_contra more
      refine segments.closed ⟨plain, none⟩ ?_ rfl
      rw [List.dropLast_cons_of_ne_nil more]
      exact List.mem_cons_self
    subst alone
    rw [spell_nil, List.append_nil, Token.source_none] at whole
    subst whole
    exact ⟨rfl, rfl, splitFirst_eq_none_iff.mpr (clear_length_iff.mp clear)⟩
  | some entity =>
    right
    have member : entity ∈ table := segments.inTable _ List.mem_cons_self entity rfl
    rw [Token.source_some, List.append_assoc] at whole
    exact ⟨entity, rfl, splitFirst_eq_some_iff.mpr ⟨member, whole, clear⟩⟩

end Segments

theorem segments_tokenize (cs : List Char) : Segments cs (tokenize cs) := by
  fun_induction tokenize cs with
  | case1 cs plain entity rest found ih =>
    obtain ⟨member, whole, clear⟩ := splitFirst_eq_some_iff.mp found
    exact ih.cons member whole clear
  | case2 => exact Segments.nil_iff.mpr rfl
  | case3 cs none notEmpty =>
    exact Segments.single notEmpty (clear_length_iff.mpr (splitFirst_eq_none_iff.mp none))

theorem Segments.eq {cs : List Char} {tokens others : List Token} (first : Segments cs tokens)
    (second : Segments cs others) : tokens = others := by
  induction tokens generalizing cs others with
  | nil => exact (second.empty.mpr (first.empty.mp rfl)).symm
  | cons token tokens ih =>
    cases others with
    | nil => exact first.empty.mpr (second.empty.mp rfl)
    | cons other others =>
      rcases first.cons_cases with ⟨rfl, rfl, none⟩ | ⟨entity, known, found⟩
      · rcases second.cons_cases with ⟨rfl, rfl, -⟩ | ⟨entity, -, found⟩
        · rfl
        · cases none.symm.trans found
      · rcases second.cons_cases with ⟨-, -, none⟩ | ⟨entity', known', found'⟩
        · cases none.symm.trans found
        · obtain ⟨plain, same⟩ := Prod.mk.inj (Option.some.inj (found.symm.trans found'))
          obtain ⟨rfl, rest⟩ := Prod.mk.inj same
          have tokenSame : token = other := by
            cases token
            cases other
            subst plain known known'
            rfl
          have further : Segments (spell tokens) others := rest ▸ second.tail
          rw [tokenSame, ih first.tail further]

theorem exists_entity_iff {cs : List Char} :
    (∃ token ∈ tokenize cs, token.entity ≠ none) ↔ occursIn cs = true := by
  rw [tokenize, occursIn]
  split
  · next plain entity rest found => simp [found]
  · next none => split <;> simp [none]

/-- The tokens of a text are its one segmentation, and an entity occurs in the text if one of them
has an entity. -/
theorem segments_iff_eq_tokenize (cs : List Char) :
    (∀ tokens, Segments cs tokens ↔ tokens = tokenize cs) ∧
      (occursIn cs = true ↔ ∃ token ∈ tokenize cs, token.entity ≠ none) := by
  refine ⟨fun tokens => ⟨fun segments => ?_, ?_⟩, exists_entity_iff.symm⟩
  · exact segments.eq (segments_tokenize cs)
  · rintro rfl
    exact segments_tokenize cs

example : tokenize "so....".toList =
    [⟨"so".toList, some ⟨"...".toList, "&hellip;"⟩⟩, ⟨".".toList, none⟩] := by
  cbv

end PageTree.Entity
