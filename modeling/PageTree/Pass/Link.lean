import PageTree.Pass.Context
import PageTree.Site.Link
import PageTree.Tree.Traversal

/-!
Links to other sites are marked with a `rel` attribute, and links within the site are made relative
to the page. Links to a place on the same page and links without a target stay as they are.
-/

namespace PageTree.LinkPass

inductive Outcome where
  | skipped
  | external
  | relativized
  | unchanged
  deriving DecidableEq

namespace Outcome

def name : Outcome → String
  | skipped => "skipped"
  | external => "external"
  | relativized => "relativized"
  | unchanged => "unchanged"

def isChange : Outcome → Bool
  | external => true
  | relativized => true
  | _ => false

end Outcome

def process (context : PageContext) (node : Node) : Node × Outcome :=
  match node.url with
  | none => (node, .skipped)
  | some url =>
    match LinkTarget.of? url.toList with
    | none => (node, .skipped)
    | some (.external _) => (node.putProperty "rel" (.str "external"), .external)
    | some (.fragment _) => (node, .unchanged)
    | some (.site _) =>
      match context.relativize? url with
      | some relative => ({ node with url := some relative }, .relativized)
      | none => (node, .unchanged)

def step (context : PageContext) (node : Node) (count : Nat) : Node × Nat :=
  let (node, outcome) := process context node
  (node, if outcome.isChange then count + 1 else count)

def apply (context : PageContext) (tree : Node) : Node × Nat :=
  tree.rewriteKind .link (step context) tree.height 0

end PageTree.LinkPass
