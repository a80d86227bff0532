/-!
Links between the pages of a site. Each page is a folder named by its identifier, and the index page
is the root. A root-relative address becomes relative to a page by going up out of the segments that
the two do not share and down along the rest of the address.
-/

namespace PageTree.Url

def startsSuffix (c : Char) : Bool := c = '?' || c = '#'

/-- The path of an address and its suffix, which starts at the first `?` or `#`. -/
def splitSuffix (url : List Char) : List Char × List Char :=
  url.span fun c => !startsSuffix c

def segments (path : List Char) : List (List Char) :=
  (path.splitOn '/').filter fun segment => !segment.isEmpty

def sharedLength : List (List Char) → List (List Char) → Nat
  | a :: as, b :: bs => if a = b then sharedLength as bs + 1 else 0
  | _, _ => 0

def joinSegments (parts : List (List Char)) : List Char := List.intercalate ['/'] parts

def climb (n : Nat) : List Char := (List.replicate n ['.', '.', '/']).flatten

def isRooted : List Char → Bool
  | '/' :: '/' :: _ => false
  | '/' :: _ => true
  | _ => false

def pageFolder (id index : List Char) : List (List Char) :=
  if id = index then [] else segments id

def route (folder : List (List Char)) (path : List Char) : List Char :=
  let target := segments path
  let shared := sharedLength folder target
  let steps := climb (folder.length - shared) ++ joinSegments (target.drop shared)
  let closed :=
    if 1 < path.length ∧ path.getLast? = some '/' ∧ shared < target.length then steps ++ ['/']
    else steps
  if closed.isEmpty then ['.', '/'] else closed

/-- The address as seen from the page `id`. Addresses that do not start at the root stay as they
are. -/
def relative (url id index : List Char) : List Char :=
  if isRooted url then
    let (path, suffix) := splitSuffix url
    route (pageFolder id index) path ++ suffix
  else url

end PageTree.Url

namespace PageTree

def relativeUrl (url id index : String) : String :=
  String.ofList (Url.relative url.toList id.toList index.toList)

end PageTree
