import PageTree.Tree.Node

/-!
What a pass may know about the page that a tree becomes. Every field may be missing; a pass then
leaves out what depends on it. An empty identifier counts as missing.
-/

namespace PageTree

structure PageContext where
  id : Option String := none
  selfPath : Option String := none
  isDocs : Bool := false
  parents : List String := []
  pages : Option Json.Fields := none
  store : Option Json.Fields := none
  nav : Option Json := none
  relativeUrl : Option (String → String → String) := none
  parseYaml : Option (String → Option Json) := none
  renderMarkup : Option (Node → String) := none
  globalProp : Option Json := none

namespace PageContext

def pageId? (context : PageContext) : Option String := context.id.filter fun id => id ≠ ""

/-- The address relative to the page, if both the page and the function are known. -/
def relativize? (context : PageContext) (url : String) : Option String := do
  let relative ← context.relativeUrl
  let id ← context.pageId?
  return relative url id

def storeGet (context : PageContext) (key : String) : Option Json :=
  context.store.bind fun entries => entries.lookup key

def storeSet (context : PageContext) (key : String) (value : Json) : Option PageContext :=
  context.store.map fun entries => { context with store := some (entries.put key value) }

end PageContext

end PageTree
