import PageTree.Pass.Entity
import PageTree.Pass.Heading
import PageTree.Pass.Link
import PageTree.Terminal.Log

/-!
A transformer runs the enabled passes over a tree, one after the other, and reports how many nodes
each of them changed.
-/

namespace PageTree

inductive Pass where
  | heading
  | link
  | entity
  deriving DecidableEq

namespace Pass

def name : Pass → String
  | heading => "heading"
  | link => "link"
  | entity => "entity"

def apply (pass : Pass) (context : PageContext) (tree : Node) : Node × Nat :=
  match pass with
  | heading => HeadingPass.apply tree
  | link => LinkPass.apply context tree
  | entity => EntityPass.apply tree

end Pass

structure Passes where
  heading : Bool := true
  link : Bool := true
  entity : Bool := true
  deriving DecidableEq

def Passes.enabled (passes : Passes) : List Pass :=
  (if passes.heading then [.heading] else []) ++ (if passes.link then [.link] else [])
    ++ (if passes.entity then [.entity] else [])

/-- The changes of one run: headings with a class, links rewritten, paragraphs rebuilt. -/
structure Stats where
  headings : Nat := 0
  links : Nat := 0
  paragraphs : Nat := 0
  deriving DecidableEq

namespace Stats

def isEmpty (stats : Stats) : Bool := stats = {}

def add (a b : Stats) : Stats :=
  ⟨a.headings + b.headings, a.links + b.links, a.paragraphs + b.paragraphs⟩

def record (stats : Stats) (pass : Pass) (count : Nat) : Stats :=
  match pass with
  | .heading => { stats with headings := count }
  | .link => { stats with links := count }
  | .entity => { stats with paragraphs := count }

def ofChanges (changes : List (Pass × Nat)) : Stats :=
  changes.foldl (fun stats change => stats.record change.1 change.2) {}

end Stats

structure Transformer where
  context : PageContext
  passes : Passes := {}

def displayFile (path : Option String) : String := path.getD "<tree>"

namespace Transformer

def runPasses (context : PageContext) : List Pass → Node → Node × List (Pass × Nat)
  | [], tree => (tree, [])
  | pass :: passes, tree =>
    let (tree, count) := pass.apply context tree
    let (tree, changes) := runPasses context passes tree
    (tree, (pass, count) :: changes)

def run (transformer : Transformer) (tree : Node) : Node × List (Pass × Nat) :=
  runPasses transformer.context transformer.passes.enabled tree

def logSteps (file : Option String) (changes : List (Pass × Nat)) : List Terminal.Step :=
  changes.map fun (pass, count) =>
    .debug pass.name (displayFile file ++ ": " ++ Terminal.number count ++ " node(s) changed")

end Transformer

end PageTree
