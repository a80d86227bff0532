/-!
The kinds of link target, told apart by how the target begins.
-/

namespace PageTree

/-- A target on another site, a place on the same page (without its `#`), or anything else. -/
inductive LinkTarget where
  | external (url : List Char)
  | fragment (anchor : List Char)
  | site (target : List Char)
  deriving DecidableEq

namespace LinkTarget

def isWeb (url : List Char) : Bool :=
  "http://".toList.isPrefixOf url || "https://".toList.isPrefixOf url

def of? (url : List Char) : Option LinkTarget :=
  if url = [] then none
  else if isWeb url then some (external url)
  else match url with
    | '#' :: anchor => some (fragment anchor)
    | _ => some (site url)

end LinkTarget

end PageTree
