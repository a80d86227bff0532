/-!
Typographic entities. A text is cut from left to right into plain runs, each followed by the first
table literal that starts after it; the earlier literal of the table wins where two start at one
place. The runs and literals put together again give the text.
-/

namespace PageTree

structure Entity where
  literal : List Char
  encoded : String
  deriving DecidableEq

namespace Entity

/-- The replaced sequences, in matching order. -/
def table : List Entity :=
  [⟨['—'], "&mdash;"⟩, ⟨['–'], "&ndash;"⟩, ⟨['"'], "&quot;"⟩, ⟨['\''], "&apos;"⟩,
    ⟨['.', '.', '.'], "&hellip;"⟩]

def lookup? (literal : List Char) : Option Entity :=
  table.find? fun entity => entity.literal = literal

/-- A plain run and the entity after it; only the last token of a text may lack the entity. -/
structure Token where
  plain : List Char
  entity : Option Entity
  deriving DecidableEq

def matchIn (entities : List Entity) (cs : List Char) : Option (Entity × List Char) :=
  match entities with
  | [] => none
  | entity :: others =>
    match entity.literal.isPrefixOf? cs with
    | some rest => some (entity, rest)
    | none => matchIn others cs

def matchAt (cs : List Char) : Option (Entity × List Char) := matchIn table cs

/-- The text before the first entity, the entity, and the text after it. -/
def splitFirst : List Char → Option (List Char × Entity × List Char)
  | [] => none
  | c :: cs =>
    match matchAt (c :: cs) with
    | some (entity, rest) => some ([], entity, rest)
    | none => (splitFirst cs).map fun (plain, entity, rest) => (c :: plain, entity, rest)

theorem append_of_isPrefixOf? {literal cs rest : List Char}
    (h : literal.isPrefixOf? cs = some rest) : literal ++ rest = cs := by
  induction literal generalizing cs with
  | nil => exact (Option.some.inj (show some cs = some rest from h)).symm
  | cons a literal ih =>
    cases cs with
    | nil => cases (show none = some rest from h)
    | cons b cs =>
      have h : (if a == b then literal.isPrefixOf? cs else none) = some rest := h
      split at h
      · next same =>
        rw [List.cons_append, ih h, eq_of_beq same]
      · simp at h

theorem matchIn_append {entities : List Entity} {cs rest : List Char} {entity : Entity}
    (h : matchIn entities cs = some (entity, rest)) :
    entity ∈ entities ∧ entity.literal ++ rest = cs := by
  induction entities with
  | nil => simp [matchIn] at h
  | cons first others ih =>
    simp only [matchIn] at h
    split at h
    · next found =>
      simp only [Option.some.injEq, Prod.mk.injEq] at h
      obtain ⟨rfl, rfl⟩ := h
      exact ⟨List.mem_cons_self, append_of_isPrefixOf? found⟩
    · exact ⟨List.mem_cons_of_mem _ (ih h).1, (ih h).2⟩

theorem literal_ne_nil {entity : Entity} (h : entity ∈ table) : entity.literal ≠ [] := by
  revert entity
  decide

theorem splitFirst_append {cs plain rest : List Char} {entity : Entity}
    (h : splitFirst cs = some (plain, entity, rest)) :
    entity ∈ table ∧ plain ++ (entity.literal ++ rest) = cs := by
  induction cs generalizing plain with
  | nil => simp [splitFirst] at h
  | cons c cs ih =>
    simp only [splitFirst] at h
    split at h
    · next found =>
      simp only [Option.some.injEq, Prod.mk.injEq] at h
      obtain ⟨rfl, rfl, rfl⟩ := h
      exact matchIn_append found
    · simp only [Option.map_eq_some_iff, Prod.mk.injEq, Prod.exists] at h
      obtain ⟨plain', entity', rest', found, rfl, rfl, rfl⟩ := h
      obtain ⟨inTable, same⟩ := ih found
      exact ⟨inTable, by rw [List.cons_append, same]⟩

theorem length_lt_of_splitFirst {cs plain rest : List Char} {entity : Entity}
    (h : splitFirst cs = some (plain, entity, rest)) : rest.length < cs.length := by
  obtain ⟨inTable, same⟩ := splitFirst_append h
  have := List.length_pos_iff.2 (literal_ne_nil inTable)
  rw [← same]
  simp only [List.length_append]
  omega

def tokenize (cs : List Char) : List Token :=
  match _h : splitFirst cs with
  | some (plain, entity, rest) => ⟨plain, some entity⟩ :: tokenize rest
  | none => if cs = [] then [] else [⟨cs, none⟩]
termination_by cs.length
decreasing_by exact length_lt_of_splitFirst _h

def occursIn (cs : List Char) : Bool := (splitFirst cs).isSome

end Entity

end PageTree
