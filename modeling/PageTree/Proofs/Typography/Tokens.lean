import Mathlib.Data.List.Basic
import Mathlib.Data.List.Infix
import PageTree.Typography.Entity

/-!
What the tokens of a text are. A text contains an entity when the literal of one is a part of it.
No plain run contains an entity, the runs and the literals put together again are the text, and of
two tokens the first one always has an entity.
-/

namespace PageTree.Entity

def Contains (cs : List Char) : Prop := ∃ entity ∈ table, entity.literal <:+: cs

/-- The literal of a table entity starts the text. -/
def Starts (cs : List Char) : Prop := ∃ entity ∈ table, entity.literal <+: cs

theorem isPrefixOf?_eq_none_iff {literal cs : List Char} :
    literal.isPrefixOf? cs = none ↔ ¬ literal <+: cs := by
  rw [Option.eq_none_iff_forall_ne_some]
  constructor
  · intro none starts
    obtain ⟨rest, whole⟩ := starts
    exact none rest (List.isPrefixOf?_eq_some_iff_append_eq.mpr whole)
  · intro apart rest found
    exact apart ⟨rest, List.isPrefixOf?_eq_some_iff_append_eq.mp found⟩

theorem matchIn_eq_none_iff {entities : List Entity} {cs : List Char} :
    matchIn entities cs = none ↔ ∀ entity ∈ entities, ¬ entity.literal <+: cs := by
  induction entities with
  | nil => simp [matchIn]
  | cons entity entities ih =>
    rw [List.forall_mem_cons, ← ih, ← isPrefixOf?_eq_none_iff]
    cases found : entity.literal.isPrefixOf? cs with
    | none => simp [matchIn, found]
    | some rest => simp [matchIn, found]

theorem matchAt_eq_none_iff {cs : List Char} : matchAt cs = none ↔ ¬ Starts cs := by
  rw [matchAt, matchIn_eq_none_iff, Starts]
  constructor
  · intro none found
    obtain ⟨entity, member, starts⟩ := found
    exact none entity member starts
  · intro none entity member starts
    exact none ⟨entity, member, starts⟩

theorem not_contains_nil : ¬ Contains [] := by
  intro found
  obtain ⟨entity, member, inside⟩ := found
  exact literal_ne_nil member (List.infix_nil.mp inside)

theorem contains_cons_iff {c : Char} {cs : List Char} :
    Contains (c :: cs) ↔ Starts (c :: cs) ∨ Contains cs := by
  constructor
  · intro found
    obtain ⟨entity, member, inside⟩ := found
    rcases List.infix_cons_iff.mp inside with starts | further
    · exact Or.inl ⟨entity, member, starts⟩
    · exact Or.inr ⟨entity, member, further⟩
  · intro found
    rcases found with ⟨entity, member, starts⟩ | ⟨entity, member, further⟩
    · exact ⟨entity, member, List.infix_cons_iff.mpr (Or.inl starts)⟩
    · exact ⟨entity, member, List.infix_cons_iff.mpr (Or.inr further)⟩

theorem Starts.mono {cs others : List Char} (starts : Starts cs) (before : cs <+: others) :
    Starts others := by
  obtain ⟨entity, member, starts⟩ := starts
  exact ⟨entity, member, starts.trans before⟩

theorem splitFirst_eq_none_iff {cs : List Char} : splitFirst cs = none ↔ ¬ Contains cs := by
  induction cs with
  | nil => simp [splitFirst, not_contains_nil]
  | cons c cs ih =>
    rw [contains_cons_iff, not_or, ← ih, ← matchAt_eq_none_iff]
    cases found : matchAt (c :: cs) with
    | none => simp [splitFirst, found]
    | some pair => simp [splitFirst, found]

theorem occursIn_iff {cs : List Char} : occursIn cs = true ↔ Contains cs := by
  rw [occursIn, Option.isSome_iff_ne_none, Ne, splitFirst_eq_none_iff, Classical.not_not]

theorem not_contains_of_splitFirst {cs plain rest : List Char} {entity : Entity}
    (found : splitFirst cs = some (plain, entity, rest)) : ¬ Contains plain := by
  induction cs generalizing plain with
  | nil => cases found
  | cons c cs ih =>
    rw [splitFirst] at found
    split at found
    · obtain ⟨rfl, -⟩ := Prod.mk.inj (Option.some.inj found)
      exact not_contains_nil
    · next none =>
      obtain ⟨⟨plain', entity', rest'⟩, later, same⟩ := Option.map_eq_some_iff.mp found
      cases same
      have whole := (splitFirst_append later).2
      have before : c :: plain' <+: c :: cs :=
        List.cons_prefix_cons.mpr ⟨rfl, ⟨entity.literal ++ rest, whole⟩⟩
      intro inside
      rcases contains_cons_iff.mp inside with starts | further
      · exact matchAt_eq_none_iff.mp none (starts.mono before)
      · exact ih later further

/-- Induction over the tokens of a text, from its end. -/
theorem tokenize_induction {motive : List Char → List Token → Prop} (empty : motive [] [])
    (last : ∀ cs, cs ≠ [] → ¬ Contains cs → motive cs [⟨cs, none⟩])
    (more : ∀ plain entity rest tokens, ¬ Contains plain → entity ∈ table → motive rest tokens →
      motive (plain ++ (entity.literal ++ rest)) (⟨plain, some entity⟩ :: tokens))
    (cs : List Char) : motive cs (tokenize cs) := by
  fun_induction tokenize cs with
  | case1 cs plain entity rest found ih =>
    obtain ⟨member, whole⟩ := splitFirst_append found
    rw [← whole]
    exact more plain entity rest _ (not_contains_of_splitFirst found) member ih
  | case2 => exact empty
  | case3 cs none notEmpty => exact last cs notEmpty (splitFirst_eq_none_iff.mp none)

end PageTree.Entity
