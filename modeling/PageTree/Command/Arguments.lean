import PageTree.Path

/-!
The arguments of the program. The options before a command and those after it are read apart; an
option that all commands share may stand on either side, and the side of the command wins. A value
stays pending until the next option or the end of the line settles it.
-/

namespace PageTree.Command

inductive UsageError where
  | displayHelp
  | displayHelpOnMissing
  | displayVersion
  | invalidCommand
  | missingCommand
  | missingArgument
  | conflict
  | invalidValue
  | tooManyValues
  | unknownArgument
  deriving DecidableEq

inductive ColorChoice where
  | auto
  | always
  | never
  deriving DecidableEq

structure TransformArguments where
  inputs : List Path
  id : Option String := none
  output : Option Path := none
  pretty : Bool := false
  heading : Option Bool := none
  link : Option Bool := none
  entity : Option Bool := none

structure ConvertArguments where
  input : Path
  output : Option Path := none
  pretty : Bool := false

inductive Action where
  | transform (arguments : TransformArguments)
  | convert (arguments : ConvertArguments)

structure Invocation where
  color : ColorChoice
  config : Path
  verbose : Bool
  action : Action

inductive OptionName where
  | color | config | verbose | help | version
  | id | output | pretty | heading | link | entity
  deriving DecidableEq

/-- A flag has no value, a setting needs one, and a toggle may have one after an equals sign. -/
inductive OptionKind where
  | flag
  | setting
  | toggle
  deriving DecidableEq

namespace OptionName

def kind : OptionName → OptionKind
  | verbose | help | version | pretty => .flag
  | color | config | id | output => .setting
  | heading | link | entity => .toggle

def long : OptionName → String
  | color => "color"
  | config => "config"
  | verbose => "verbose"
  | help => "help"
  | version => "version"
  | id => "id"
  | output => "output"
  | pretty => "pretty"
  | heading => "heading"
  | link => "link"
  | entity => "entity"

def short? : OptionName → Option Char
  | config => some 'C'
  | verbose => some 'v'
  | help => some 'h'
  | version => some 'V'
  | output => some 'o'
  | pretty => some 'p'
  | _ => none

def accepts (name : OptionName) (value : String) : Bool :=
  match name with
  | color => ["auto", "always", "never"].contains value
  | config | output => value ≠ ""
  | heading | link | entity => value = "true" || value = "false"
  | _ => true

end OptionName

inductive CommandName where
  | transform
  | convert
  deriving DecidableEq

def CommandName.ofText? (text : String) : Option CommandName :=
  if text = "transform" || text = "t" then some .transform
  else if text = "convert" || text = "c" then some .convert
  else none

/-- What may stand on one side of the command: its options, whether a command ends it, and how many
inputs it takes. -/
structure Scope where
  options : List OptionName
  endsWithCommand : Bool
  inputLimit : Option Nat

def shared : List OptionName := [.color, .config, .verbose, .help]

def outerScope : Scope := ⟨.version :: shared, true, some 0⟩

def CommandName.scope : CommandName → Scope
  | transform => ⟨[.id, .output, .pretty, .heading, .link, .entity] ++ shared, false, none⟩
  | convert => ⟨[.output, .pretty] ++ shared, false, some 1⟩

namespace Scope

def long? (scope : Scope) (text : String) : Option OptionName :=
  scope.options.find? fun name => name.long = text

def short? (scope : Scope) (c : Char) : Option OptionName :=
  scope.options.find? fun name => name.short? = some c

end Scope

/-- What has been read and waits to be settled. -/
inductive Pending where
  | nothing
  | setting (name : OptionName) (value : Option String)
  | inputs (values : List String)

structure Given where
  values : List (OptionName × String) := []
  inputs : List String := []
  pending : Pending := .nothing
  /-- How many inputs there were, settled or not. -/
  inputCount : Nat := 0
  /-- Whether two dashes have come, after which all arguments are inputs. -/
  onlyInputs : Bool := false

namespace Given

def awaitsValue (given : Given) : Bool :=
  match given.pending with
  | .setting _ none => true
  | _ => false

def set (given : Given) (name : OptionName) (value : String) : Except UsageError Given :=
  if (given.values.lookup name).isSome then .error .conflict
  else if name.accepts value then .ok { given with values := given.values ++ [(name, value)] }
  else .error .invalidValue

def settle (given : Given) : Except UsageError Given :=
  let free := { given with pending := .nothing }
  match given.pending with
  | .nothing => .ok free
  | .setting _ none => .error .invalidValue
  | .setting name (some value) => free.set name value
  | .inputs values =>
    if values.contains "" then .error .invalidValue
    else .ok { free with inputs := free.inputs ++ values }

def raise (given : Given) (name : OptionName) : Except UsageError Given := do
  let given ← given.settle
  match name with
  | .help => .error .displayHelp
  | .version => .error .displayVersion
  | _ => given.set name "true"

def setAttached (given : Given) (name : OptionName) (value : Option String) :
    Except UsageError Given := do
  match value with
  | some value => (← given.settle).set name value
  | none =>
    let given ← given.settle
    if name.kind = .toggle then given.set name "true"
    else .ok { given with pending := .setting name none }

def readLong (scope : Scope) (given : Given) (cs : List Char) : Except UsageError Given :=
  let (name, value) := match cs.span (· ≠ '=') with
    | (name, _ :: value) => (String.ofList name, some (String.ofList value))
    | (name, []) => (String.ofList name, none)
  match scope.long? name with
  | none => .error .unknownArgument
  | some name =>
    if name.kind = .flag then
      if value.isSome then .error .tooManyValues else given.raise name
    else given.setAttached name value

def readShort (scope : Scope) (given : Given) : List Char → Except UsageError Given
  | [] => .ok given
  | c :: rest =>
    match scope.short? c with
    | none => .error .unknownArgument
    | some name =>
      if name.kind = .flag then do
        let given ← given.raise name
        readShort scope given rest
      else
        match rest with
        | [] => given.setAttached name none
        | '=' :: value => given.setAttached name (some (String.ofList value))
        | value => given.setAttached name (some (String.ofList value))

def addInput (scope : Scope) (given : Given) (arg : String) : Except UsageError Given := do
  if scope.inputLimit.any (· ≤ given.inputCount) then
    if scope.endsWithCommand && !(given.onlyInputs && (arg = "help" || (CommandName.ofText? arg).isSome))
    then .error .invalidCommand
    else .error .unknownArgument
  else
    let count := given.inputCount + 1
    match given.pending with
    | .inputs values => .ok { given with pending := .inputs (values ++ [arg]), inputCount := count }
    | _ => .ok { ← given.settle with pending := .inputs [arg], inputCount := count }

def readArgument (scope : Scope) (given : Given) (arg : String) : Except UsageError Given :=
  if given.onlyInputs then given.addInput scope arg
  else
    match arg.toList with
    | ['-', '-'] => .ok { given with onlyInputs := true }
    | '-' :: '-' :: cs => given.readLong scope cs
    | '-' :: c :: cs => given.readShort scope (c :: cs)
    | _ =>
      match given.pending with
      | .setting name none => .ok { given with pending := .setting name (some arg) }
      | _ => given.addInput scope arg

def readAll (scope : Scope) : Given → List String → Except UsageError Given
  | given, [] => given.settle
  | given, arg :: rest => do
    let given ← given.readArgument scope arg
    readAll scope given rest

end Given

def helpError : List String → UsageError
  | [] => .displayHelp
  | [name] =>
    if name = "help" || (CommandName.ofText? name).isSome then .displayHelp else .invalidCommand
  | _ => .invalidCommand

def splitAtCommand : Given → List String →
    Except UsageError (Given × Option (CommandName × List String))
  | given, [] => .ok (given, none)
  | given, arg :: rest =>
    let free := !given.onlyInputs && !given.awaitsValue
    if free && arg = "help" then .error (helpError rest)
    else
      match if free then CommandName.ofText? arg else none with
      | some name => .ok (given, some (name, rest))
      | none => do
        let given ← given.readArgument outerScope arg
        splitAtCommand given rest

def value? (values : List (OptionName × String)) (name : OptionName) : Option String :=
  values.lookup name

def path? (values : List (OptionName × String)) (name : OptionName) : Option Path :=
  (value? values name).map Path.ofText

def toggle? (values : List (OptionName × String)) (name : OptionName) : Option Bool :=
  (value? values name).map (· = "true")

def colorOf (text : String) : ColorChoice :=
  if text = "always" then .always else if text = "never" then .never else .auto

def actionOf (name : CommandName) (given : Given) : Except UsageError Action :=
  let values := given.values
  let pretty := (value? values .pretty).isSome
  match given.inputs with
  | [] => .error .missingArgument
  | input :: more =>
    match name with
    | .transform => .ok (.transform {
        inputs := (input :: more).map Path.ofText
        id := value? values .id
        output := path? values .output
        pretty
        heading := toggle? values .heading
        link := toggle? values .link
        entity := toggle? values .entity })
    | .convert => .ok (.convert { input := Path.ofText input, output := path? values .output, pretty })

def defaultConfig : Path := "mdpass.toml".toList

/-- Reads the arguments after the name of the program. An error after the command comes before one
that is still pending in front of it. -/
def readArguments (args : List String) : Except UsageError Invocation := do
  match ← splitAtCommand {} args with
  | (outer, none) =>
    let outer ← outer.settle
    if outer.values.isEmpty then .error .displayHelpOnMissing else .error .missingCommand
  | (outer, some (name, rest)) =>
    let inner ← Given.readAll name.scope {} rest
    let action ← actionOf name inner
    let outer ← outer.settle
    let values := inner.values ++ outer.values
    return {
      color := colorOf ((value? values .color).getD "auto")
      config := (path? values .config).getD defaultConfig
      verbose := (value? values .verbose).isSome
      action }

end PageTree.Command
