import PageTree.Command.Transform
import PageTree.Proofs.Toml.Distinct
import PageTree.Proofs.Pass.Order

/-!
Toggles among the inputs of a transformation. A toggle takes a value only after an equals sign, and so
leaves the argument that follows alone. Wherever the toggles stand, all other arguments are the inputs in
their order, and each pass runs if its toggle says so or, where it has none, the configuration.
-/

namespace PageTree

def Pass.option : Pass → Command.OptionName
  | heading => .heading
  | link => .link
  | entity => .entity

theorem Pass.option_injective : Function.Injective option := by
  intro pass other same
  cases pass <;> cases other <;> first | rfl | cases same

end PageTree

namespace PageTree.Command

/-- How a toggle is written: bare, or with one of its two values. -/
inductive ToggleForm where
  | bare
  | on
  | off
  deriving DecidableEq

namespace ToggleForm

def text : ToggleForm → String
  | bare => ""
  | on => "=true"
  | off => "=false"

def value : ToggleForm → String
  | bare | on => "true"
  | off => "false"

def isOn : ToggleForm → Bool
  | bare | on => true
  | off => false

end ToggleForm

structure Toggle where
  pass : Pass
  form : ToggleForm

namespace Toggle

def text (toggle : Toggle) : String := "--" ++ toggle.pass.name ++ toggle.form.text

def entry (toggle : Toggle) : OptionName × String := (toggle.pass.option, toggle.form.value)

/-- The toggles that make a choice for each pass. A pass without a choice has no toggle. -/
def chosen (choice : Pass → Option ToggleForm) : List Toggle :=
  [.heading, .link, .entity].filterMap fun pass => (choice pass).map (Toggle.mk pass)

end Toggle

/-- A list that holds the members of two lists, those of each in their order. -/
inductive Interleaved {α : Type} : List α → List α → List α → Prop
  | nil : Interleaved [] [] []
  | left {x : α} {xs ys zs : List α} (rest : Interleaved xs ys zs) :
      Interleaved (x :: xs) ys (x :: zs)
  | right {y : α} {xs ys zs : List α} (rest : Interleaved xs ys zs) :
      Interleaved xs (y :: ys) (y :: zs)

/-- An argument that is no option: it is not empty and starts with no dash. -/
def IsPlain (name : String) : Prop := name ≠ "" ∧ name.toList.head? ≠ some '-'

namespace Given

/-- What has been read holds the options and the inputs so far, whether the last of these are settled
or wait for more. -/
inductive Holds (values : List (OptionName × String)) (names : List String) : Given → Prop
  | settled : Holds values names { values, inputs := names, inputCount := names.length }
  | pending {front back : List String} (whole : front ++ back = names) (filled : "" ∉ back) :
      Holds values names
        { values, inputs := front, pending := .inputs back, inputCount := names.length }

variable {given : Given} {values : List (OptionName × String)} {names : List String}

theorem Holds.settle_eq (holds : given.Holds values names) :
    given.settle = .ok { values, inputs := names, inputCount := names.length } := by
  cases holds with
  | settled => rfl
  | pending whole filled =>
    subst whole
    simp only [settle, List.contains_eq_mem, filled, decide_false, Bool.false_eq_true, if_false]

theorem readArgument_plain (scope : Scope) {name : String} (plain : IsPlain name)
    (options : given.onlyInputs = false) (idle : given.awaitsValue = false) :
    given.readArgument scope name = given.addInput scope name := by
  rw [readArgument, if_neg (Bool.eq_false_iff.mp options)]
  split
  · next same => exact absurd (congrArg List.head? same) plain.2
  · next same => exact absurd (congrArg List.head? same) plain.2
  · next same => exact absurd (congrArg List.head? same) plain.2
  · split
    · next waits => simp [awaitsValue, waits] at idle
    · rfl

theorem Holds.readInput (holds : given.Holds values names) {name : String} (plain : IsPlain name) :
    ∃ next, given.readArgument CommandName.transform.scope name = .ok next ∧
      next.Holds values (names ++ [name]) := by
  have filled : "" ∉ [name] := by simpa using Ne.symm plain.1
  have length : (names ++ [name]).length = names.length + 1 := List.length_append
  cases holds with
  | settled =>
    refine ⟨_, (readArgument_plain _ plain rfl rfl).trans rfl, ?_⟩
    have next : Holds values (names ++ [name]) _ := .pending rfl filled
    rwa [length] at next
  | @pending front back whole full =>
    refine ⟨_, (readArgument_plain _ plain rfl rfl).trans rfl, ?_⟩
    have more : "" ∉ back ++ [name] := List.not_mem_append full filled
    have next : Holds values (names ++ [name]) _ :=
      .pending (by rw [← List.append_assoc, whole]) more
    rwa [length] at next

/-- A toggle settles what waits and then sets its option, without a look at what follows. -/
theorem readArgument_toggle (toggle : Toggle) (options : given.onlyInputs = false) :
    given.readArgument CommandName.transform.scope toggle.text =
      given.settle.bind fun settled => settled.set toggle.pass.option toggle.form.value := by
  rw [readArgument, if_neg (Bool.eq_false_iff.mp options)]
  obtain ⟨pass, form⟩ := toggle
  cases pass <;> cases form <;> rfl

theorem Holds.readToggle (holds : given.Holds values names) {toggle : Toggle}
    (fresh : toggle.pass.option ∉ values.map Prod.fst) :
    given.readArgument CommandName.transform.scope toggle.text =
      .ok { values := values ++ [toggle.entry], inputs := names, inputCount := names.length } := by
  have options : given.onlyInputs = false := by cases holds <;> rfl
  have none : values.lookup toggle.pass.option = none := lookup_eq_none_iff_not_mem.mpr fresh
  have accepted : toggle.pass.option.accepts toggle.form.value = true := by
    obtain ⟨pass, form⟩ := toggle
    cases pass <;> cases form <;> rfl
  rw [readArgument_toggle toggle options, holds.settle_eq, Except.bind, set, none, if_neg nofun,
    if_pos accepted]
  rfl

theorem Holds.readAll_eq (holds : given.Holds values names) {inputs texts args : List String}
    (mixed : Interleaved inputs texts args) {toggles : List Toggle}
    (spelled : toggles.map Toggle.text = texts) (plain : ∀ name ∈ inputs, IsPlain name)
    (distinct : (values.map Prod.fst ++ toggles.map fun toggle => toggle.pass.option).Nodup) :
    given.readAll CommandName.transform.scope args = .ok
      { values := values ++ toggles.map Toggle.entry, inputs := names ++ inputs,
        inputCount := (names ++ inputs).length } := by
  -- What has been read so far is arbitrary, so that it may grow with each argument.
  induction mixed generalizing given values names toggles with
  | nil =>
    obtain rfl := List.map_eq_nil_iff.mp spelled
    rw [readAll, holds.settle_eq, List.map_nil, List.append_nil, List.append_nil]
  | @left name inputs texts args _ ih =>
    obtain ⟨own, others⟩ := List.forall_mem_cons.mp plain
    obtain ⟨next, read, further⟩ := holds.readInput own
    have rest := ih further spelled others distinct
    rw [List.append_assoc] at rest
    rw [readAll, read]
    exact rest
  | @right text inputs texts args _ ih =>
    obtain ⟨toggle, toggles, rfl, rfl, same⟩ := List.map_eq_cons_iff.mp spelled
    rw [List.map_cons] at distinct
    have fresh : toggle.pass.option ∉ values.map Prod.fst := fun member =>
      (List.nodup_append.mp distinct).2.2 _ member _ List.mem_cons_self rfl
    have further : Holds (values ++ [toggle.entry]) names _ := .settled
    have rest := ih further same plain (by simpa [Toggle.entry] using distinct)
    rw [readAll, holds.readToggle fresh, List.map_cons,
      List.append_cons values toggle.entry (toggles.map Toggle.entry)]
    exact rest

end Given

theorem value?_eq_none {toggles : List Toggle} {name : OptionName}
    (absent : ∀ toggle ∈ toggles, toggle.pass.option ≠ name) :
    value? (toggles.map Toggle.entry) name = none := by
  rw [value?, lookup_eq_none_iff_not_mem, List.map_map, List.mem_map]
  rintro ⟨toggle, member, same⟩
  exact absent toggle member same

theorem value?_of_kind (toggles : List Toggle) {name : OptionName} (other : name.kind ≠ .toggle) :
    value? (toggles.map Toggle.entry) name = none := by
  refine value?_eq_none fun toggle _ => ?_
  rintro rfl
  obtain ⟨pass, form⟩ := toggle
  cases pass <;> exact other rfl

section Choice

variable {choice : Pass → Option ToggleForm} {toggles : List Toggle}
  (order : toggles.Perm (Toggle.chosen choice))

include order

theorem mem_toggles {toggle : Toggle} :
    toggle ∈ toggles ↔ choice toggle.pass = some toggle.form := by
  obtain ⟨pass, form⟩ := toggle
  rw [order.mem_iff, Toggle.chosen, List.mem_filterMap]
  constructor
  · rintro ⟨other, -, same⟩
    obtain ⟨_, known, made⟩ := Option.map_eq_some_iff.mp same
    cases made
    exact known
  · intro known
    exact ⟨pass, by cases pass <;> decide, by rw [known, Option.map_some]⟩

theorem nodup_toggles : (toggles.map fun toggle => toggle.pass.option).Nodup := by
  have distinct : ((Toggle.chosen choice).map fun toggle => toggle.pass.option).Nodup := by
    cases heading : choice .heading <;> cases link : choice .link <;>
      cases entity : choice .entity <;>
      simp [Toggle.chosen, heading, link, entity, Pass.option]
  exact (order.map _).nodup_iff.mpr distinct

theorem value?_toggles (pass : Pass) :
    value? (toggles.map Toggle.entry) pass.option = (choice pass).map ToggleForm.value := by
  have keys : (toggles.map Toggle.entry).map Prod.fst =
      toggles.map fun toggle => toggle.pass.option := List.map_map
  have distinct : ((toggles.map Toggle.entry).map Prod.fst).Nodup := keys ▸ nodup_toggles order
  cases known : choice pass with
  | some form =>
    have member : (⟨pass, form⟩ : Toggle) ∈ toggles := (mem_toggles order).mpr known
    exact lookup_of_mem distinct (List.mem_map_of_mem (f := Toggle.entry) member)
  | none =>
    refine value?_eq_none fun toggle member same => ?_
    have own := (mem_toggles order).mp member
    rw [Pass.option_injective same, known] at own
    cases own

theorem toggle?_toggles (pass : Pass) :
    toggle? (toggles.map Toggle.entry) pass.option = (choice pass).map ToggleForm.isOn := by
  rw [toggle?, value?_toggles order, Option.map_map]
  congr 1
  funext form
  cases form <;> rfl

end Choice

/-- The arguments of a transformation that are inputs and toggles only. -/
def TransformArguments.chosen (names : List String) (choice : Pass → Option ToggleForm) :
    TransformArguments :=
  { inputs := names.map Path.ofText
    heading := (choice .heading).map ToggleForm.isOn
    link := (choice .link).map ToggleForm.isOn
    entity := (choice .entity).map ToggleForm.isOn }

theorem actionOf_toggles {names : List String} (given : names ≠ []) {choice : Pass → Option ToggleForm}
    {toggles : List Toggle} (order : toggles.Perm (Toggle.chosen choice)) (count : Nat) :
    actionOf .transform
        { values := toggles.map Toggle.entry, inputs := names, inputCount := count } =
      .ok (.transform (.chosen names choice)) := by
  obtain ⟨first, more, rfl⟩ := List.exists_cons_of_ne_nil given
  have heading := toggle?_toggles order .heading
  have link := toggle?_toggles order .link
  have entity := toggle?_toggles order .entity
  have id : value? (toggles.map Toggle.entry) .id = none := value?_of_kind toggles nofun
  have output : value? (toggles.map Toggle.entry) .output = none := value?_of_kind toggles nofun
  have pretty : value? (toggles.map Toggle.entry) .pretty = none := value?_of_kind toggles nofun
  simp only [Pass.option] at heading link entity
  simp only [actionOf, TransformArguments.chosen, heading, link, entity, id, path?, output, pretty]
  rfl

theorem getD_isOn_iff (form : Option ToggleForm) (configured : Bool) :
    (form.map ToggleForm.isOn).getD configured = true ↔
      form = some .bare ∨ form = some .on ∨ form = none ∧ configured = true := by
  cases form with
  | none => simp
  | some form => cases form <;> simp [ToggleForm.isOn]

/-- Toggles never take an input away, wherever they stand among the inputs, and a pass runs if its toggle
is bare or on, or is absent while the configuration has the pass run. -/
theorem readArguments_toggles {command : String} (named : command = "transform" ∨ command = "t")
    {names : List String} (given : names ≠ []) (plain : ∀ name ∈ names, IsPlain name)
    (choice : Pass → Option ToggleForm) {toggles : List Toggle}
    (order : toggles.Perm (Toggle.chosen choice)) {args : List String}
    (mixed : Interleaved names (toggles.map Toggle.text) args) :
    readArguments (command :: args) =
      .ok ⟨.auto, defaultConfig, false, .transform (.chosen names choice)⟩ ∧
    (TransformArguments.chosen names choice).inputs = names.map Path.ofText ∧
    ∀ passes pass, pass ∈ (resolvePasses (.chosen names choice) passes).enabled ↔
      choice pass = some .bare ∨ choice pass = some .on ∨
        choice pass = none ∧ pass ∈ passes.enabled := by
  refine ⟨?_, rfl, ?_⟩
  · have split : splitAtCommand {} (command :: args) = .ok ({}, some (.transform, args)) := by
      rcases named with rfl | rfl <;> rfl
    have start : Given.Holds [] [] {} := .settled
    have inner := start.readAll_eq mixed rfl plain (nodup_toggles order)
    rw [List.nil_append, List.nil_append] at inner
    have action := actionOf_toggles given order names.length
    have color : value? (toggles.map Toggle.entry) .color = none := value?_of_kind toggles nofun
    have config : value? (toggles.map Toggle.entry) .config = none := value?_of_kind toggles nofun
    have verbose : value? (toggles.map Toggle.entry) .verbose = none := value?_of_kind toggles nofun
    simp only [readArguments, split, inner, action, bind, Except.bind, Given.settle, pure, Except.pure,
      List.append_nil, path?, color, config, verbose]
    rfl
  · intro passes pass
    obtain ⟨heading, link, entity⟩ := passes.mem_enabled
    obtain ⟨heading', link', entity'⟩ :=
      (resolvePasses (.chosen names choice) passes).mem_enabled
    cases pass with
    | heading => rw [heading', heading, ← getD_isOn_iff]; rfl
    | link => rw [link', link, ← getD_isOn_iff]; rfl
    | entity => rw [entity', entity, ← getD_isOn_iff]; rfl

/-- A bare toggle before an input that is named like a command. -/
theorem readArguments_toggles_between :
    let names := ["a.md", "help"]
    let toggles : List Toggle := [⟨.entity, .off⟩, ⟨.link, .bare⟩]
    let args := ["--entity=false", "a.md", "--link", "help"]
    let choice (pass : Pass) : Option ToggleForm :=
      match pass with
      | .heading => none
      | .link => some .bare
      | .entity => some .off
    names ≠ [] ∧ (∀ name ∈ names, IsPlain name) ∧ toggles.Perm (Toggle.chosen choice) ∧
      Interleaved names (toggles.map Toggle.text) args ∧
      readArguments ("t" :: args) =
        .ok ⟨.auto, defaultConfig, false, .transform (.chosen names choice)⟩ ∧
      (resolvePasses (.chosen names choice) ⟨false, false, true⟩).enabled = [.link] := by
  intro names toggles args choice
  have given : names ≠ [] := List.cons_ne_nil _ _
  have plain : ∀ name ∈ names, IsPlain name :=
    List.forall_mem_cons.mpr ⟨⟨by decide, by decide⟩, List.forall_mem_singleton.mpr
      ⟨by decide, by decide⟩⟩
  have order : toggles.Perm (Toggle.chosen choice) := .swap _ _ _
  have mixed : Interleaved names (toggles.map Toggle.text) args :=
    .right (.left (.right (.left .nil)))
  have read := readArguments_toggles (.inr rfl) given plain choice order mixed
  exact ⟨given, plain, order, mixed, read.1, by decide⟩

end PageTree.Command
