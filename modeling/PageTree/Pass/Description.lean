import PageTree.Json.Numeral
import PageTree.Pass.Context
import PageTree.Terminal.Log
import PageTree.Text.Hidden

/-!
One-line descriptions of a page context and of the values in it, for inspection. Functions and large
values are shown by their presence or their size.
-/

namespace PageTree

def describeList (items : List String) : String := "[" ++ ", ".intercalate items ++ "]"

def describeOption (item : Option String) : String :=
  match item with
  | some text => "Some(" ++ text ++ ")"
  | none => "None"

def describeBool (b : Bool) : String := if b then "true" else "false"

/-- Fields between braces, with a blank inside each brace unless there is no blank around them. -/
def describeFields (padding : String) (fields : List (String × String)) : String :=
  "\x7b" ++ padding ++ ", ".intercalate (fields.map fun field => field.1 ++ ": " ++ field.2)
    ++ padding ++ "\x7d"

namespace Json

mutual

def describe : Json → String
  | null => "Null"
  | bool b => "Bool(" ++ describeBool b ++ ")"
  | int n => "Number(" ++ String.ofList (intText n) ++ ")"
  | double bits => "Number(" ++ String.ofList (doubleText bits) ++ ")"
  | str s => "String(" ++ Quoted.quote s ++ ")"
  | arr items => "Array " ++ describeList (describeItems items)
  | obj fields => "Object " ++ describeFields "" (describePairs fields)

def describeItems : List Json → List String
  | [] => []
  | item :: items => item.describe :: describeItems items

def describePairs : List (String × Json) → List (String × String)
  | [] => []
  | (key, value) :: fields => (Quoted.quote key, value.describe) :: describePairs fields

end

end Json

namespace PageContext

def describe (context : PageContext) : String :=
  "PageContext " ++ describeFields " " [
    ("id", describeOption (context.id.map Quoted.quote)),
    ("self_path", describeOption (context.selfPath.map Quoted.quote)),
    ("is_docs", describeBool context.isDocs),
    ("parents", describeList (context.parents.map Quoted.quote)),
    ("pages", describeOption (context.pages.map fun pages => Terminal.number pages.length)),
    ("store", describeBool context.store.isSome),
    ("nav", describeBool context.nav.isSome),
    ("relative_url", describeBool context.relativeUrl.isSome),
    ("parse_yaml", describeBool context.parseYaml.isSome),
    ("render_markup", describeBool context.renderMarkup.isSome),
    ("global_prop", describeOption (context.globalProp.map Json.describe))]

end PageContext

end PageTree
