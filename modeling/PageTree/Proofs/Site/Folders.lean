import PageTree.Proofs.Files.Components
import PageTree.Proofs.Site.Pages
import PageTree.Proofs.Site.Routes

/-!
The folder that a page is rendered to, and the addresses on it. A source below the content folder is
rendered to the folder of its own name, or to the one it lies in if its name is that of the index.
Addresses made relative to the page lead from there to what they name, except on the one page whose
folder has the name of the index page itself: its addresses are made as if it were the index page.
-/

namespace PageTree

open PageTree.Path (Component)

namespace PageId

end PageId

end PageTree
