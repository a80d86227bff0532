import PageTree.Proofs.Json.Fields
import PageTree.Proofs.Pass.EntityEncoding
import PageTree.Proofs.Site.Routes
import PageTree.Proofs.Tree.Everywhere

/-!
What a second run finds. A run leaves a tree settled: its headings have no identifiers, its links
are marked or relative to the page, and no paragraph has an entity in a text. On a settled tree
there is one thing left to do. A heading loses one reference in each run, so that another one may
now stand at its front; a tree without such a heading is not changed again.
-/

namespace PageTree

open Node (overChildren childList_overChildren Everywhere everywhere_iff everywhere_ofKind_iff
  Discreet Rewrite)

namespace PageContext

theorem pageId?_eq_some_iff {context : PageContext} {id : String} :
    context.pageId? = some id ↔ context.id = some id ∧ id ≠ "" := by
  rw [pageId?, Option.filter_eq_some_iff, decide_eq_true_iff]

theorem relativize?_eq_some_iff {context : PageContext} {url relative : String} :
    context.relativize? url = some relative ↔ ∃ make id, context.relativeUrl = some make ∧
      context.pageId? = some id ∧ make url id = relative := by
  simp only [relativize?, Option.bind_eq_bind, Option.bind_eq_some_iff, Option.pure_def,
    Option.some.injEq, exists_and_left]

/-- The context makes no addresses, or it makes them as the site does. -/
def Sited (context : PageContext) : Prop :=
  ∀ relative ∈ context.relativeUrl, ∃ index,
    relative = fun url id => PageTree.relativeUrl url id index

theorem Sited.exists_of_relativize? {context : PageContext} (sited : context.Sited)
    {url relative : String} (found : context.relativize? url = some relative) :
    context.relativize? relative = some relative ∧
      ∃ id index, relative.toList = Url.relative url.toList id index := by
  obtain ⟨make, id, known, page, rfl⟩ := relativize?_eq_some_iff.mp found
  obtain ⟨index, rfl⟩ := sited make known
  have again : PageTree.relativeUrl (PageTree.relativeUrl url id index) id index =
      PageTree.relativeUrl url id index := by
    simp only [PageTree.relativeUrl, String.toList_ofList, Url.relative_relative]
  exact ⟨relativize?_eq_some_iff.mpr ⟨_, id, known, page, again⟩, id.toList, index.toList,
    String.toList_ofList⟩

end PageContext

namespace LinkTarget

theorem isWeb_iff {url : List Char} : isWeb url = true ↔
    ∃ scheme ∈ ["http://".toList, "https://".toList], scheme <+: url := by
  simp [isWeb, List.isPrefixOf_iff_prefix]

theorem isWeb_of_external {url rest : List Char} (external : of? url = some (.external rest)) :
    isWeb url = true := by
  unfold of? at external
  split at external
  · cases external
  · split at external
    · next web => exact web
    · split at external <;> cases external

theorem not_isWeb_of_site {url rest : List Char} (site : of? url = some (.site rest)) :
    ¬ isWeb url = true := by
  unfold of? at site
  split at site
  · cases site
  · split at site
    · cases site
    · next other => exact other

theorem not_isWeb_relative {url : List Char} (other : ¬ isWeb url = true) (id index : List Char) :
    ¬ isWeb (Url.relative url id index) = true := by
  cases rooted : Url.isRooted url with
  | false =>
    rw [Url.relative_of_not_rooted rooted]
    exact other
  | true =>
    have schemes : ∀ scheme ∈ ["http://".toList, "https://".toList],
        (scheme.all fun c => !Url.startsSuffix c) = true ∧
          ¬ scheme.IsChain fun a b => a = '/' → b ≠ '/' := by
      decide
    intro web
    obtain ⟨scheme, known, before⟩ := isWeb_iff.mp web
    obtain ⟨unmarked, doubled⟩ := schemes scheme known
    have plain : ∀ c ∈ scheme, Url.startsSuffix c = false := by simpa using unmarked
    have inRoute : scheme <+: Url.route (Url.pageFolder id index) (Url.splitSuffix url).1 := by
      have inPath := Url.prefix_splitSuffix plain before
      rwa [Url.splitSuffix_relative rooted] at inPath
    obtain ⟨rest, same⟩ := inRoute
    have chain := Url.isChain_route (Url.pageFolder id index) (Url.splitSuffix url).1
    rw [← same] at chain
    exact doubled chain.left_of_append

end LinkTarget

namespace LinkPass

theorem putProperty_putProperty (node : Node) (key : String) (before value : Json) :
    (node.putProperty key before).putProperty key value = node.putProperty key value := by
  simp only [Node.putProperty, Node.dataOrEmpty, Option.getD_some, Json.Fields.put_put]

theorem process_relative {context : PageContext} {node : Node} {relative : String}
    (known : node.url = some relative) (inside : ¬ LinkTarget.isWeb relative.toList = true)
    (same : context.relativize? relative = some relative) : (process context node).1 = node := by
  cases target : LinkTarget.of? relative.toList with
  | none => simp only [process, known, target]
  | some target' =>
    cases target' with
    | fragment _ => simp only [process, known, target]
    | external _ => exact absurd (LinkTarget.isWeb_of_external target) inside
    | site _ =>
      have kept : { node with url := some relative } = node := by
        cases node
        cases known
        rfl
      simp only [process, known, target, same, kept]

theorem process_process {context : PageContext} (sited : context.Sited) (node : Node) :
    (process context (process context node).1).1 = (process context node).1 := by
  -- Where the first run keeps a link, the second one finds the same link.
  have kept : (process context node).1 = node →
      (process context (process context node).1).1 = (process context node).1 :=
    fun same => congrArg (fun node => (process context node).1) same
  cases known : node.url with
  | none => exact kept (by simp only [process, known])
  | some url =>
    cases target : LinkTarget.of? url.toList with
    | none => exact kept (by simp only [process, known, target])
    | some target' =>
      cases target' with
      | fragment _ => exact kept (by simp only [process, known, target])
      | external _ =>
        have marks : ∀ other : Node, other.url = some url →
            (process context other).1 = other.putProperty "rel" (.str "external") := by
          intro other same
          simp only [process, same, target]
        rw [marks node known, marks _ (by exact known), putProperty_putProperty]
      | site _ =>
        cases found : context.relativize? url with
        | none => exact kept (by simp only [process, known, target, found])
        | some relative =>
          obtain ⟨again, id, index, text⟩ := sited.exists_of_relativize? found
          have other := LinkTarget.not_isWeb_of_site target
          have inside := LinkTarget.not_isWeb_relative other id index
          rw [← text] at inside
          have first : (process context node).1 = { node with url := some relative } := by
            simp only [process, known, target, found]
          rw [first]
          exact process_relative rfl inside again

end LinkPass

namespace HeadingPass

theorem clearIds_clearIds (node : Node) : clearIds (clearIds node) = clearIds node := by
  simp only [clearIds, Node.dataOrEmpty, Option.getD_some, Json.Fields.remove_remove]

theorem clearIds_putProperty {key : String} (other : key ≠ "id") (node : Node) (value : Json) :
    clearIds (node.putProperty key value) = (clearIds node).putProperty key value := by
  simp only [clearIds, Node.putProperty, Node.dataOrEmpty, Option.getD_some,
    Json.Fields.remove_put_of_ne other]

theorem clearIds_normalize (node : Node) : clearIds (normalize node).1 = (normalize node).1 := by
  have again := clearIds_clearIds node
  unfold normalize
  split
  · next reference others _ =>
    have shortened : clearIds { clearIds node with children := some others } =
        { clearIds node with children := some others } :=
      congrArg (fun node => { node with children := some others }) again
    rw [clearIds_putProperty (by decide), shortened]
  · exact again

/-- A reference at the front of a heading with more content. -/
def HasLeadingReference (node : Node) : Prop :=
  ∃ first second others, node.children = some (first :: second :: others) ∧
    first.kind = .linkReference

def Free (node : Node) : Prop := node.kind = .heading → ¬ HasLeadingReference node

theorem normalize_of_not_hasLeadingReference {node : Node} (plain : ¬ HasLeadingReference node) :
    normalize node = (clearIds node, false) := by
  have none : leadingReference? node = none := by
    unfold leadingReference?
    split
    · next first second others children =>
      exact if_neg fun kind => plain ⟨first, second, others, children, kind⟩
    · rfl
  simp only [normalize, none]

theorem length_normalize {node : Node} (leads : HasLeadingReference node) :
    (normalize node).1.childList.length + 1 = node.childList.length := by
  obtain ⟨first, second, others, children, kind⟩ := leads
  have found := leadingReference?_of_children children kind
  rw [childList_of_leadingReference? found, normalize, found]
  rfl

end HeadingPass

namespace EntityPass

theorem not_hasEntity_of_mem_rebuildChild {child piece : Node}
    (member : piece ∈ rebuildChild child) : ¬ HasEntity piece := by
  rw [rebuildChild] at member
  split at member
  · obtain ⟨pieces, same, sound, -⟩ := spells_splitText (child.value.getD "")
    rw [same] at member
    obtain ⟨part, inPieces, rfl⟩ := List.mem_map.mp member
    intro has
    cases part with
    | plain text =>
      obtain ⟨-, value, known, contains⟩ := has
      obtain rfl := Option.some.inj known
      exact (sound _ inPieces).2 contains
    | entity found => cases has.1
  · next other =>
    rw [List.mem_singleton.mp member]
    exact fun has => other (hasEntity_iff.mpr has)

theorem not_qualifies_apply (node : Node) : ¬ Qualifies (rewrite.apply node) := by
  by_cases before : Qualifies node
  · rw [apply_of_qualifies before]
    intro qualifies
    obtain ⟨-, piece, member, has⟩ := qualifies
    obtain ⟨child, -, inside⟩ := List.mem_flatMap.mp member
    exact not_hasEntity_of_mem_rebuildChild inside has
  · rw [apply_of_not_qualifies before]
    exact before

theorem qualifies_overChildren {f : Node → Node} (discreet : Discreet f) {node : Node} :
    Qualifies (overChildren f node) ↔ Qualifies node := by
  have same : ∀ child, HasEntity (f child) ↔ HasEntity child := by
    intro child
    rw [HasEntity, discreet.kind, discreet.value, HasEntity]
  simp only [Qualifies, childList_overChildren, List.mem_map, exists_exists_and_eq_and, same]
  rfl

end EntityPass

namespace Pass

variable {context : PageContext}

theorem discreet_rewriteAll (order : List Pass) : Discreet (rewriteAll context order).apply := by
  induction order with
  | nil => constructor <;> exact fun _ => rfl
  | cons pass order ih =>
    have first := pass.discreet_rewrite context
    exact {
      kind := fun node => (ih.kind _).trans (first.kind node)
      value := fun node => (ih.value _).trans (first.value node)
      label := fun node => (ih.label _).trans (first.label node)
      unplaced := fun node => (congrArg _ (first.unplaced node)).trans (ih.unplaced _)
      text := fun value => (congrArg _ (first.text value)).trans (ih.text value)
      html := fun value => (congrArg _ (first.html value)).trans (ih.html value) }

theorem not_qualifies_rewrite (pass : Pass) {node : Node} (plain : ¬ EntityPass.Qualifies node) :
    ¬ EntityPass.Qualifies ((pass.rewrite context).apply node) := by
  by_cases own : node.kind = pass.kind
  · intro qualifies
    have paragraph := ((pass.discreet_rewrite context).kind node).symm.trans qualifies.1
    have entity : pass = .entity := kind_injective (own.symm.trans paragraph)
    subst entity
    exact EntityPass.not_qualifies_apply node qualifies
  · have skipped : (pass.rewrite context).apply node = node := if_neg own
    rw [skipped]
    exact plain

theorem not_qualifies_rewriteAll_of_not (order : List Pass) {node : Node}
    (plain : ¬ EntityPass.Qualifies node) :
    ¬ EntityPass.Qualifies ((rewriteAll context order).apply node) := by
  induction order generalizing node with
  | nil => exact plain
  | cons pass order ih => exact ih (pass.not_qualifies_rewrite plain)

theorem not_qualifies_rewriteAll {order : List Pass} (encodes : .entity ∈ order) (node : Node) :
    ¬ EntityPass.Qualifies ((rewriteAll context order).apply node) := by
  induction order generalizing node with
  | nil => cases encodes
  | cons pass order ih =>
    rcases List.mem_cons.mp encodes with rfl | later
    · exact not_qualifies_rewriteAll_of_not order (EntityPass.not_qualifies_apply node)
    · exact ih later _

theorem everywhere_not_qualifies {order : List Pass} (encodes : .entity ∈ order) (tree : Node) :
    Everywhere (fun node => ¬ EntityPass.Qualifies node)
      (Transformer.runPasses context order tree).1 := by
  rw [fst_runPasses]
  refine Rewrite.everywhere_walk (fun node => ?_) tree
  rw [EntityPass.qualifies_overChildren (discreet_rewriteAll order).walk]
  exact not_qualifies_rewriteAll encodes node

end Pass

/-- A node as a run leaves it. -/
structure Settled (context : PageContext) (node : Node) : Prop where
  heading : node.kind = .heading → HeadingPass.clearIds node = node
  link : node.kind = .link → (LinkPass.process context node).1 = node
  paragraph : ¬ EntityPass.Qualifies node

namespace Settled

variable {context : PageContext}

def rewrite (context : PageContext) : Rewrite := Pass.rewriteAll context ({} : Passes).enabled

theorem rewrite_apply (context : PageContext) (node : Node) :
    (rewrite context).apply node = Passes.rewriteByKind context {} node :=
  Passes.rewriteAll_eq_rewriteByKind context (List.Perm.refl _) node

theorem discreet_rewrite (context : PageContext) : Discreet (rewrite context).apply :=
  Pass.discreet_rewriteAll _

theorem overChildren {node : Node} (settled : Settled context node) {f : Node → Node}
    (discreet : Discreet f) : Settled context (Node.overChildren f node) where
  heading := fun kind => congrArg (Node.overChildren f) (settled.heading kind)
  link := by
    intro kind
    have apart := (LinkPass.local_process context).overChildren discreet node
    exact apart.trans (congrArg (Node.overChildren f) (settled.link kind))
  paragraph := mt (EntityPass.qualifies_overChildren discreet).mp settled.paragraph

theorem of_apply (sited : context.Sited) (node : Node) :
    Settled context ((rewrite context).apply node) := by
  have same := (discreet_rewrite context).kind node
  refine ⟨fun kind => ?_, fun kind => ?_, Pass.not_qualifies_rewriteAll (by decide) node⟩
  · rw [same] at kind
    rw [rewrite_apply, Passes.rewriteByKind, kind]
    exact HeadingPass.clearIds_normalize node
  · rw [same] at kind
    rw [rewrite_apply, Passes.rewriteByKind, kind]
    exact LinkPass.process_process sited node

theorem everywhere_run (sited : context.Sited) (tree : Node) :
    Everywhere (Settled context) (Transformer.run ⟨context, {}⟩ tree).1 := by
  have walk : (Transformer.run ⟨context, {}⟩ tree).1 = (rewrite context).walk tree :=
    Pass.fst_runPasses context _ tree
  rw [walk]
  exact Rewrite.everywhere_walk
    (fun node => (of_apply sited node).overChildren (discreet_rewrite context).walk) tree

theorem apply_eq_self {node : Node} (settled : Settled context node)
    (free : HeadingPass.Free node) : (rewrite context).apply node = node := by
  rw [rewrite_apply, Passes.rewriteByKind]
  split
  · next kind =>
    have cleared := settled.heading kind
    have normal := HeadingPass.normalize_of_not_hasLeadingReference (free kind)
    simp only [normal, cleared, if_true]
  · next kind => exact settled.link kind
  · next kind =>
    have same := EntityPass.encode_of_not_qualifies kind settled.paragraph
    simp only [same, if_true]
  · rfl

theorem length_apply {node : Node} (kind : node.kind = .heading)
    (leads : HeadingPass.HasLeadingReference node) :
    ((rewrite context).apply node).childList.length + 1 = node.childList.length := by
  rw [rewrite_apply, Passes.rewriteByKind, kind]
  exact HeadingPass.length_normalize leads

/-- On a settled node, all that a run may do is to take a reference from a heading. -/
theorem apply_eq_self_iff {node : Node} (settled : Settled context node) :
    (rewrite context).apply node = node ↔ HeadingPass.Free node := by
  constructor
  · intro same kind leads
    have length := @length_apply context node kind leads
    rw [same] at length
    exact Nat.succ_ne_self _ length
  · exact settled.apply_eq_self

theorem apply_eq_self_or_length_ne {node : Node} (settled : Settled context node) :
    (rewrite context).apply node = node ∨
      ((rewrite context).apply node).childList.length ≠ node.childList.length := by
  by_cases leads : node.kind = .heading ∧ HeadingPass.HasLeadingReference node
  · right
    have length := @length_apply context node leads.1 leads.2
    omega
  · left
    exact settled.apply_eq_self fun kind has => leads ⟨kind, has⟩

theorem walk_eq_self_iff {tree : Node} (settled : Everywhere (Settled context) tree) :
    (rewrite context).walk tree = tree ↔ Everywhere HeadingPass.Free tree := by
  rw [Rewrite.walk_eq_self_iff (settled.imp fun _ => apply_eq_self_or_length_ne)]
  exact Node.everywhere_congr (settled.imp fun _ => apply_eq_self_iff)

theorem headings_eq_zero {tree : Node} (settled : Everywhere (Settled context) tree)
    (free : Everywhere HeadingPass.Free tree) : (HeadingPass.apply tree).2 = 0 := by
  have steps : Everywhere (fun node => node.kind = .heading →
      ∀ count, HeadingPass.step node count = (node, count)) tree := by
    refine Everywhere.mp (settled.imp fun node settled free kind count => ?_) free
    have cleared := settled.heading kind
    have normal := HeadingPass.normalize_of_not_hasLeadingReference (free kind)
    simp only [HeadingPass.step, normal, cleared, Bool.false_eq_true, if_false]
  rw [HeadingPass.apply, Node.rewriteKind_eq_self steps]

end Settled

theorem EntityPass.apply_eq_self {tree : Node}
    (plain : Everywhere (fun node => ¬ Qualifies node) tree) : apply tree = (tree, 0) := by
  have steps : Everywhere (fun node => node.kind = .paragraph →
      ∀ count, step node count = (node, count)) tree := by
    refine plain.imp fun node plain kind count => ?_
    simp only [step, encode_of_not_qualifies kind plain, Bool.false_eq_true, if_false]
  rw [apply, Node.rewriteKind_eq_self steps]

namespace Transformer

/-- A second run changes a tree only if a heading still has a reference at its front. It never
rebuilds a paragraph, and if it changes nothing it takes no reference. -/
theorem run_run {context : PageContext} (sited : context.Sited) (tree : Node) :
    let once := (run ⟨context, {}⟩ tree).1
    let again := run ⟨context, {}⟩ once
    (again.1 = once ↔
        ¬ ∃ heading ∈ once.ofKindIn .heading, HeadingPass.HasLeadingReference heading) ∧
      (Stats.ofChanges again.2).paragraphs = 0 ∧
      (again.1 = once → (Stats.ofChanges again.2).headings = 0) := by
  intro once again
  have settled : Everywhere (Settled context) once := Settled.everywhere_run sited tree
  have walk : again.1 = (Settled.rewrite context).walk once := Pass.fst_runPasses context _ once
  have unchanged := Settled.walk_eq_self_iff settled
  -- The paragraphs are counted in the tree that five passes have made of the first one.
  have encodes : Pass.entity ∈ [Pass.heading, .link, .entity, .heading, .link] := by decide
  have encoded : Everywhere (fun node => ¬ EntityPass.Qualifies node)
      (runPasses context [.heading, .link] once).1 := Pass.everywhere_not_qualifies encodes tree
  rw [walk]
  refine ⟨?_, ?_, fun same => ?_⟩
  · have none : Everywhere HeadingPass.Free once ↔
        ∀ heading ∈ once.ofKindIn .heading, ¬ HeadingPass.HasLeadingReference heading :=
      everywhere_ofKind_iff
    rw [unchanged, none]
    simp only [not_exists, not_and]
  · exact congrArg Prod.snd (EntityPass.apply_eq_self encoded)
  · exact Settled.headings_eq_zero settled (unchanged.mp same)

/-- A heading with two references, of which each run takes one. -/
theorem run_run_references :
    let context : PageContext :=
      { id := some "docs", relativeUrl := some fun url id => relativeUrl url id "index" }
    let tree := Node.root [.heading 1 [.linkReference "2" [], .linkReference "3" [], .text "a"],
      .paragraph [.text "b…", .link "/c" []]]
    let once := (run ⟨context, {}⟩ tree).1
    context.Sited ∧ (run ⟨context, {}⟩ once).1 ≠ once ∧
      (Stats.ofChanges (run ⟨context, {}⟩ once).2).paragraphs = 0 := by
  intro context tree once
  have sited : context.Sited := by
    intro relative known
    obtain rfl := Option.mem_some_iff.mp known
    exact ⟨"index", rfl⟩
  obtain ⟨unchanged, paragraphs, -⟩ := run_run sited tree
  have leads : ∃ heading ∈ once.ofKindIn .heading, HeadingPass.HasLeadingReference heading := by
    refine ⟨_, List.mem_singleton.mpr rfl, _, _, _, rfl, rfl⟩
  exact ⟨sited, fun same => unchanged.mp same leads, paragraphs⟩

end Transformer

end PageTree
