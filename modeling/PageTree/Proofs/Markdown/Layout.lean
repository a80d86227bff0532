import PageTree.Proofs.Markdown.Placing
import PageTree.Proofs.Markdown.Points
import PageTree.Proofs.Tree.Induction

/-!
The layout of a document. If the spans of events lie in each other as their elements do, and follow
each other as the events do, then so do the places of the nodes: each node holds its children, and each
child ends before the next one starts.
-/

namespace PageTree.Markdown

structure Span.Fits (text : String) (low high : Nat) (span : Span) : Prop where
  begins : IsBoundary text span.start
  ends : IsBoundary text span.stop
  after : low ≤ span.start
  forth : span.start ≤ span.stop
  before : span.stop ≤ high

theorem Span.fits_iff {text : String} {low high : Nat} {span : Span} : span.Fits text low high ↔
    (IsBoundary text span.start ∧ IsBoundary text span.stop) ∧
      low ≤ span.start ∧ span.start ≤ span.stop ∧ span.stop ≤ high :=
  ⟨fun fits => ⟨⟨fits.begins, fits.ends⟩, fits.after, fits.forth, fits.before⟩,
    fun ⟨⟨begins, ends⟩, after, forth, before⟩ => ⟨begins, ends, after, forth, before⟩⟩

instance (text : String) (low high : Nat) (span : Span) : Decidable (span.Fits text low high) :=
  decidable_of_iff _ Span.fits_iff.symm

/-- Each event that starts an element or stands for itself comes after its last sibling and lies within
the innermost open element. That element ends at `limit`, those around it end at the offsets in
`outer`, and what was read in it reaches to `reached`. A task box may be anywhere: in a loose item it
comes before the paragraph that holds its event. -/
def Arranged (text : String) : Nat → List Nat → Nat → List (Event × Span) → Prop
  | _, _, _, [] => True
  | limit, outer, reached, (.start _, span) :: rest =>
    span.Fits text reached limit ∧ Arranged text span.stop (limit :: outer) span.start rest
  | limit, outer, _, (.stop _, _) :: rest => Arranged text (outer.headD 0) outer.tail limit rest
  | limit, outer, reached, (.task _, _) :: rest => Arranged text limit outer reached rest
  | limit, outer, reached, (_, span) :: rest =>
    span.Fits text reached limit ∧ Arranged text limit outer span.stop rest

instance Arranged.decidable (text : String) : (limit : Nat) → (outer : List Nat) →
    (reached : Nat) → (events : List (Event × Span)) → Decidable (Arranged text limit outer reached events)
  | _, _, _, [] => .isTrue trivial
  | limit, outer, reached, (event, span) :: rest =>
    match event with
    | .start _ =>
      have := decidable text span.stop (limit :: outer) span.start rest
      inferInstanceAs (Decidable (_ ∧ _))
    | .stop _ => decidable text (outer.headD 0) outer.tail limit rest
    | .task _ => decidable text limit outer reached rest
    | .text _ | .code _ | .html _ | .inlineHtml _ | .softBreak | .hardBreak | .rule
    | .footnoteReference _ | .inlineMath _ | .displayMath _ =>
      have := decidable text limit outer span.stop rest
      inferInstanceAs (Decidable (_ ∧ _))

/-- Nodes that follow each other between two offsets, with their children within them. -/
inductive Row (text : String) : Nat → Nat → List Node → Prop
  | nil {low high : Nat} (le : low ≤ high) : Row text low high []
  | cons {low high : Nat} {span : Span} {node : Node} {nodes : List Node}
      (fits : span.Fits text low high)
      (place : node.position = some ((LineIndex.ofText text).position span.start span.stop))
      (inside : Row text span.start span.stop node.childList) (rest : Row text span.stop high nodes) :
      Row text low high (node :: nodes)

/-- A node has a place, holds the places of its children, and these follow each other. -/
structure Laid (node : Node) : Prop where
  place : ∃ position, node.position = some position ∧ position.start.NotAfter position.finish ∧
    ∀ child ∈ node.childList, ∃ inner, child.position = some inner ∧
      position.start.NotAfter inner.start ∧ inner.finish.NotAfter position.finish
  order : node.childList.Pairwise fun first second =>
    ∀ before ∈ first.position, ∀ after ∈ second.position, before.finish.NotAfter after.start

variable {text : String}

theorem Span.Fits.mono {low low' high high' : Nat} {span : Span} (fits : span.Fits text low high)
    (left : low' ≤ low) (right : high ≤ high') : span.Fits text low' high' :=
  ⟨fits.begins, fits.ends, Nat.le_trans left fits.after, fits.forth, Nat.le_trans fits.before right⟩

theorem Span.Fits.narrow {low high : Nat} {span : Span} (fits : span.Fits text low high) :
    span.Fits text low span.stop :=
  ⟨fits.begins, fits.ends, fits.after, fits.forth, Nat.le_refl _⟩

theorem isSingle_of_isLeaf {event : Event} (leaf : event.isLeaf) : event.isSingle := by
  cases event <;> first | rfl | exact absurd leaf Bool.false_ne_true

theorem isSingle_of_isRaw {event : Event} (raw : event.isRaw) : event.isSingle := by
  cases event <;> first | rfl | exact absurd raw Bool.false_ne_true

theorem isSingle_of_isText {event : Event} (text : event.isText) : event.isSingle := by
  cases event <;> first | rfl | exact absurd text Bool.false_ne_true

theorem ne_task_of_isText {event : Event} (text : event.isText) (state : Bool) :
    event ≠ .task state := by
  rintro rfl
  exact absurd text Bool.false_ne_true

theorem ne_task_of_isLeaf {event : Event} (leaf : event.isLeaf) (state : Bool) :
    event ≠ .task state := by
  rintro rfl
  exact absurd leaf Bool.false_ne_true

theorem arranged_single {event : Event} (single : event.isSingle)
    (shown : ∀ state, event ≠ .task state) {limit reached : Nat} {outer : List Nat} {span : Span}
    {rest : List (Event × Span)} : Arranged text limit outer reached ((event, span) :: rest) ↔
      span.Fits text reached limit ∧ Arranged text limit outer span.stop rest := by
  cases event with
  | start | stop => exact absurd single Bool.false_ne_true
  | task state => exact absurd rfl (shown state)
  | _ => exact Iff.rfl

theorem Arranged.singles {events rest : List (Event × Span)}
    (single : ∀ event ∈ events, event.1.isSingle) {limit reached : Nat} {outer : List Nat}
    (bound : reached ≤ limit) (arranged : Arranged text limit outer reached (events ++ rest)) :
    ∃ later, reached ≤ later ∧ later ≤ limit ∧ Arranged text limit outer later rest ∧
      ∀ event ∈ events, (∀ state, event.1 ≠ .task state) →
        IsBoundary text event.2.stop ∧ reached ≤ event.2.stop ∧ event.2.stop ≤ later := by
  induction events generalizing reached with
  | nil => exact ⟨reached, Nat.le_refl _, bound, arranged, nofun⟩
  | cons event events ih =>
    obtain ⟨own, others⟩ := List.forall_mem_cons.mp single
    obtain ⟨event, span⟩ := event
    by_cases task : ∃ state, event = .task state
    · obtain ⟨state, rfl⟩ := task
      obtain ⟨later, after, before, ends, each⟩ := ih others bound arranged
      refine ⟨later, after, before, ends, List.forall_mem_cons.mpr ⟨?_, each⟩⟩
      exact fun shown => absurd rfl (shown state)
    · obtain ⟨fits, follows⟩ := (arranged_single own (not_exists.mp task)).mp arranged
      obtain ⟨later, after, before, ends, each⟩ := ih others fits.before follows
      have forth := Nat.le_trans fits.after fits.forth
      refine ⟨later, Nat.le_trans forth after, before, ends, List.forall_mem_cons.mpr ⟨?_, ?_⟩⟩
      · exact fun _ => ⟨fits.ends, forth, after⟩
      · intro other member shown
        obtain ⟨boundary, low, high⟩ := each other member shown
        exact ⟨boundary, Nat.le_trans forth low, high⟩

theorem Arranged.merged {run rest : List (Event × Span)} {node : Node}
    (merged : Merged (LineIndex.ofText text) run node) {limit reached : Nat} {outer : List Nat}
    (arranged : Arranged text limit outer reached (run ++ rest)) :
    ∃ later span, later ≤ limit ∧ Arranged text limit outer later rest ∧
      Span.Fits text reached later span ∧
      node.position = some ((LineIndex.ofText text).position span.start span.stop) := by
  obtain ⟨first, isFirst, last, isLast, opens, closes, place⟩ := merged.place
  obtain ⟨more, rfl⟩ := List.head?_eq_some_iff.mp isFirst
  have single : ∀ event ∈ more, event.1.isSingle := by
    intro event member
    rcases merged.only event (List.mem_cons_of_mem _ member) with isText | ⟨state, task⟩
    · exact isSingle_of_isText isText
    · rw [task]
      rfl
  obtain ⟨fits, follows⟩ :=
    (arranged_single (isSingle_of_isText opens) (ne_task_of_isText opens)).mp arranged
  obtain ⟨later, after, before, ends, each⟩ := Arranged.singles single fits.before follows
  refine ⟨later, ⟨first.2.start, last.2.stop⟩, before, ends, ?_, place⟩
  rcases List.mem_cons.mp (List.mem_of_getLast? isLast) with rfl | member
  · exact ⟨fits.begins, fits.ends, fits.after, fits.forth, after⟩
  · obtain ⟨boundary, low, high⟩ := each last member (ne_task_of_isText closes)
    exact ⟨fits.begins, boundary, fits.after, Nat.le_trans fits.forth low, high⟩

theorem Row.le {low high : Nat} {nodes : List Node} (row : Row text low high nodes) : low ≤ high := by
  induction row with
  | nil le => exact le
  | cons fits _ _ _ _ ih => exact Nat.le_trans (Nat.le_trans fits.after fits.forth) ih

theorem Row.append {low middle high : Nat} {nodes others : List Node}
    (front : Row text low middle nodes) (back : Row text middle high others) :
    Row text low high (nodes ++ others) := by
  induction nodes generalizing low with
  | nil =>
    cases front with
    | nil le =>
      cases back with
      | nil le' => exact .nil (Nat.le_trans le le')
      | cons fits place inside rest => exact .cons (fits.mono le (Nat.le_refl _)) place inside rest
  | cons node nodes ih =>
    cases front with
    | cons fits place inside rest =>
      exact .cons (fits.mono (Nat.le_refl _) back.le) place inside (ih rest)

theorem Row.mono {low low' high high' : Nat} {nodes : List Node} (row : Row text low high nodes)
    (left : low' ≤ low) (right : high ≤ high') : Row text low' high' nodes := by
  have front : Row text low' low [] := .nil left
  have whole := (front.append row).append (.nil right)
  rwa [List.nil_append, List.append_nil] at whole

theorem Row.concat {low middle high : Nat} {nodes : List Node} (front : Row text low middle nodes)
    {span : Span} (fits : span.Fits text middle high) {node : Node}
    (place : node.position = some ((LineIndex.ofText text).position span.start span.stop))
    (inside : Row text span.start span.stop node.childList) :
    Row text low high (nodes ++ [node]) :=
  front.append (.cons fits place inside (.nil fits.before))

theorem Row.exists_fits {low high : Nat} {nodes : List Node} (row : Row text low high nodes) :
    ∀ node ∈ nodes, ∃ span : Span, span.Fits text low high ∧
      node.position = some ((LineIndex.ofText text).position span.start span.stop) ∧
      Row text span.start span.stop node.childList := by
  induction nodes generalizing low with
  | nil => exact nofun
  | cons node nodes ih =>
    cases row with
    | @cons _ _ span _ _ fits place inside rest =>
      refine List.forall_mem_cons.mpr ⟨⟨span, fits, place, inside⟩, fun other member => ?_⟩
      obtain ⟨span', fits', known⟩ := ih rest other member
      exact ⟨span', fits'.mono (Nat.le_trans fits.after fits.forth) (Nat.le_refl _), known⟩

theorem Row.exists_start {low high : Nat} {nodes : List Node} (row : Row text low high nodes)
    (some : nodes ≠ []) : ∃ start, IsBoundary text start ∧ low ≤ start ∧ Row text start high nodes ∧
      ∀ first ∈ nodes.head?, ∀ position ∈ first.position,
        position.start = (LineIndex.ofText text).point start := by
  cases row with
  | nil => exact absurd rfl some
  | @cons _ _ span _ _ fits place inside rest =>
    refine ⟨span.start, fits.begins, fits.after,
      .cons { fits with after := Nat.le_refl _ } place inside rest, ?_⟩
    rintro _ ⟨⟩ position known
    obtain rfl := Option.some.inj (place.symm.trans known)
    rfl

theorem Row.exists_stop {low high : Nat} {nodes : List Node} (row : Row text low high nodes)
    (some : nodes ≠ []) : ∃ stop, IsBoundary text stop ∧ stop ≤ high ∧ Row text low stop nodes ∧
      ∀ last ∈ nodes.getLast?, ∀ position ∈ last.position,
        position.finish = (LineIndex.ofText text).point stop := by
  induction nodes generalizing low with
  | nil => exact absurd rfl some
  | cons node nodes ih =>
    cases row with
    | @cons _ _ span _ _ fits place inside rest =>
      cases nodes with
      | nil =>
        refine ⟨span.stop, fits.ends, fits.before, .cons fits.narrow place inside (.nil (Nat.le_refl _)),
          ?_⟩
        rintro _ ⟨⟩ position known
        obtain rfl := Option.some.inj (place.symm.trans known)
        rfl
      | cons second nodes =>
        obtain ⟨stop, ends, before, row, last⟩ := ih rest (List.cons_ne_nil _ _)
        exact ⟨stop, ends, before, .cons { fits with before := row.le } place inside row, last⟩

/-- Arranged events give a row of nodes. -/
theorem Gives.row {events rest : List (Event × Span)} {nodes : List Node}
    (gives : Gives (LineIndex.ofText text) events nodes) {limit reached : Nat} {outer : List Nat}
    (bound : reached ≤ limit) (arranged : Arranged text limit outer reached (events ++ rest)) :
    ∃ later, later ≤ limit ∧ Arranged text limit outer later rest ∧ Row text reached later nodes := by
  induction gives generalizing limit outer reached rest with
  | nil => exact ⟨reached, bound, arranged, .nil (Nat.le_refl _)⟩
  | task _ ih =>
    rw [List.append_assoc] at arranged
    obtain ⟨later, before, follows, row⟩ := ih bound arranged
    exact ⟨later, before, follows, row⟩
  | leaf _ single _ leaf place ih =>
    rw [List.append_assoc] at arranged
    obtain ⟨later, -, follows, row⟩ := ih bound arranged
    obtain ⟨fits, follows⟩ :=
      (arranged_single (isSingle_of_isLeaf single) (ne_task_of_isLeaf single)).mp follows
    exact ⟨_, fits.before, follows, row.concat fits.narrow place (leaf ▸ .nil fits.forth)⟩
  | text _ merged ih =>
    rw [List.append_assoc] at arranged
    obtain ⟨later, -, follows, row⟩ := ih bound arranged
    obtain ⟨later', span, before, follows, fits, place⟩ := Arranged.merged merged follows
    exact ⟨later', before, follows, row.concat fits place (merged.leaf ▸ .nil fits.forth)⟩
  | @literal _ inside _ _ _ _ _ _ _ raw _ leaf place ih =>
    rw [List.append_assoc, List.cons_append, List.append_assoc] at arranged
    obtain ⟨later, -, ⟨fits, follows⟩, row⟩ := ih bound arranged
    have single : ∀ event ∈ inside, event.1.isSingle := fun event member =>
      isSingle_of_isRaw (raw event member)
    obtain ⟨_, -, -, after, -⟩ := Arranged.singles single fits.forth follows
    exact ⟨_, fits.before, after, row.concat fits.narrow place (leaf ▸ .nil fits.forth)⟩
  | element _ _ _ kept place ih inner =>
    rw [List.append_assoc, List.cons_append, List.append_assoc] at arranged
    obtain ⟨later, -, ⟨fits, follows⟩, row⟩ := ih bound arranged
    obtain ⟨reached, before, follows, children⟩ := inner fits.forth follows
    have inside : Row text _ _ _ := children.mono (Nat.le_refl _) before
    refine ⟨_, fits.before, follows, row.concat fits.narrow place ?_⟩
    rw [kept]
    split
    · exact .nil fits.forth
    · exact inside
  | paragraph _ _ _ _ kept place ih inner =>
    rw [List.append_assoc] at arranged
    obtain ⟨later, before, follows, row⟩ := ih bound arranged
    obtain ⟨later', before', follows', children⟩ := inner before follows
    obtain ⟨first, isFirst, last, isLast, start, begins, finish, ends, place⟩ := place
    have some : _ ≠ [] := List.ne_nil_of_mem (List.mem_of_mem_head? isFirst)
    obtain ⟨left, first', after, children, starts⟩ := children.exists_start some
    obtain ⟨right, last', before'', children, stops⟩ := children.exists_stop some
    have fits : Span.Fits text later later' ⟨left, right⟩ :=
      ⟨first', last', after, children.le, before''⟩
    refine ⟨later', before', follows', row.concat fits ?_ (kept ▸ children)⟩
    rw [place, starts first isFirst start begins, stops last isLast finish ends]
    rfl

theorem Row.pairwise {low high : Nat} {nodes : List Node} (row : Row text low high nodes) :
    nodes.Pairwise fun first second => ∀ before ∈ first.position, ∀ after ∈ second.position,
      before.finish.NotAfter after.start := by
  induction nodes generalizing low with
  | nil => exact .nil
  | cons node nodes ih =>
    cases row with
    | @cons _ _ span _ _ fits place inside rest =>
      refine .cons (fun other member before known after known' => ?_) (ih rest)
      obtain ⟨span', fits', place', -⟩ := rest.exists_fits other member
      obtain rfl := Option.some.inj (place.symm.trans known)
      obtain rfl := Option.some.inj (place'.symm.trans known')
      exact LineIndex.notAfter_point fits.ends fits'.begins fits'.after

theorem everywhere_laid {node : Node} (span : Span) (begins : IsBoundary text span.start)
    (ends : IsBoundary text span.stop)
    (place : node.position = some ((LineIndex.ofText text).position span.start span.stop))
    (inside : Row text span.start span.stop node.childList) : node.Everywhere Laid := by
  induction node using Node.child_induction generalizing span with
  | step node ih =>
    refine .intro ⟨⟨_, place, LineIndex.notAfter_point begins ends inside.le, ?_⟩,
      inside.pairwise⟩ ?_
    · intro child member
      obtain ⟨span', fits, place', -⟩ := inside.exists_fits child member
      exact ⟨_, place', LineIndex.notAfter_point begins fits.begins fits.after,
        LineIndex.notAfter_point fits.ends ends fits.before⟩
    · intro child member
      obtain ⟨span', fits, place', inside'⟩ := inside.exists_fits child member
      exact ih child member span' fits.begins fits.ends place' inside'

/-- A document is laid out as its text is. The root stands for the whole text. A text stands from the
first of its events to the last, a paragraph without a tag from its first child to its last, and every
other node where its event does. -/
theorem treeOfEvents_laid {events : List (Event × Span)}
    (nested : WellNested [] (events.map Prod.fst))
    (arranged : Arranged text text.utf8ByteSize [] 0 events)
    (filled : ∀ span, (.text "", span) ∉ events) :
    let tree := treeOfEvents text events
    tree.position = some ((LineIndex.ofText text).position 0 text.utf8ByteSize) ∧
      tree.Everywhere Laid ∧ Gives (LineIndex.ofText text) events tree.childList := by
  obtain ⟨nodes, gives, same⟩ := exists_gives text nested filled
  have whole : Arranged text text.utf8ByteSize [] 0 (events ++ []) := by rwa [List.append_nil]
  obtain ⟨later, before, -, row⟩ := gives.row (Nat.zero_le _) whole
  have begins : IsBoundary text 0 := String.Pos.Raw.isValid_zero
  have ends : IsBoundary text text.utf8ByteSize := String.Pos.Raw.isValid_rawEndPos
  rw [same]
  exact ⟨rfl, everywhere_laid ⟨0, text.utf8ByteSize⟩ begins ends rfl
    (row.mono (Nat.le_refl _) before), gives⟩

/-- A tight item of two lines. Its paragraph stands from its text to the end of its emphasis. -/
theorem treeOfEvents_laid_tight :
    let text := "- é\n  *b*"
    let events := [(.start (.list none), ⟨0, 10⟩), (.start .item, ⟨0, 10⟩), (.text "é", ⟨2, 4⟩),
      (.softBreak, ⟨4, 5⟩), (.start .emphasis, ⟨7, 10⟩), (.text "b", ⟨8, 9⟩),
      (.stop .emphasis, ⟨7, 10⟩), (.stop .item, ⟨0, 10⟩), (.stop .list, ⟨0, 10⟩)]
    let tree := treeOfEvents text events
    WellNested [] (events.map Prod.fst) ∧ Arranged text text.utf8ByteSize [] 0 events ∧
      (∀ span, (.text "", span) ∉ events) ∧ tree.Everywhere Laid ∧
      Gives (LineIndex.ofText text) events tree.childList := by
  intro text events tree
  have nested : WellNested [] (events.map Prod.fst) := by decide
  have arranged : Arranged text text.utf8ByteSize [] 0 events := by decide
  have filled : ∀ span, (.text "", span) ∉ events := by simp [events]
  have laid := treeOfEvents_laid nested arranged filled
  exact ⟨nested, arranged, filled, laid.2⟩

end PageTree.Markdown
