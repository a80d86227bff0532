import PageTree.Proofs.Terminal.Screen

/-!
What the steps of a log leave on a terminal. The lines are told from the steps alone, by looking back:
which progress line is live, how often each of its names was counted since it was begun, and whether
debug lines are shown. The texts of a run, taken by a terminal, close just these lines; what stands in
the line of the cursor is nothing or the progress line that is live.
-/

namespace PageTree.Terminal

/-- A progress line: its items, and the names counted since it was begun, the latest first. -/
structure Progress where
  items : List (String × Nat)
  counted : List String := []

/-- The progress line that is live after a past. -/
def liveAfter : List Step → Option Progress
  | [] => none
  | .progress items :: _ => some { items }
  | .finish :: _ => none
  | .drop :: _ => none
  | .increment name :: past =>
    (liveAfter past).map fun progress => { progress with counted := name :: progress.counted }
  | .log _ _ :: past => liveAfter past
  | .debug _ _ :: past => liveAfter past
  | .verbose _ :: past => liveAfter past

def verboseAfter : List Step → Bool
  | [] => false
  | .verbose on :: _ => on
  | _ :: past => verboseAfter past

namespace Progress

/-- The items with their counts. What is counted under a name goes to the first item of that name. -/
def countsFrom (counted : List String) : List String → List (String × Nat) → List Counter
  | _, [] => []
  | seen, (name, total) :: items =>
    ⟨name, if name ∈ seen then 0 else counted.count name, total⟩ ::
      countsFrom counted (name :: seen) items

def counters (progress : Progress) : List Counter :=
  countsFrom progress.counted [] (progress.items.filter fun item => 0 < item.2)

def line (progress : Progress) : List Char :=
  ("[transform] " ++ " ".intercalate (progress.counters.map Counter.text)).toList

end Progress

/-- The line that a step closes after a past. -/
def lineOf? (past : List Step) : Step → Option (List Char)
  | .log name message => some ("[" ++ name ++ "] " ++ message).toList
  | .debug name message =>
    if verboseAfter past then some ("[" ++ name ++ "] " ++ message).toList else none
  | .finish => (liveAfter past).map Progress.line
  | _ => none

def linesFrom (past : List Step) : List Step → List (List Char)
  | [] => []
  | step :: steps => (lineOf? past step).toList ++ linesFrom (step :: past) steps

def linesOf (steps : List Step) : List (List Char) := linesFrom [] steps

/-- The names and messages of a step are free of control characters. -/
def Step.IsPlain : Step → Prop
  | .log name message => Plain name ∧ Plain message
  | .debug name message => Plain name ∧ Plain message
  | .progress items => ∀ item ∈ items, Plain item.1
  | _ => True

instance : DecidablePred Step.IsPlain
  | .log name message => inferInstanceAs (Decidable (Plain name ∧ Plain message))
  | .debug name message => inferInstanceAs (Decidable (Plain name ∧ Plain message))
  | .progress items => inferInstanceAs (Decidable (∀ item ∈ items, Plain item.1))
  | .verbose _ | .increment _ | .finish | .drop => inferInstanceAs (Decidable True)

namespace Progress

theorem countsFrom_of_seen {name : String} {counted seen : List String} (known : name ∈ seen)
    (items : List (String × Nat)) :
    countsFrom (name :: counted) seen items = countsFrom counted seen items := by
  induction items generalizing seen with
  | nil => rfl
  | cons item items ih =>
    rw [countsFrom, countsFrom, ih (List.mem_cons_of_mem _ known)]
    by_cases here : item.1 ∈ seen
    · simp only [if_pos here]
    · have other : name ≠ item.1 := by rintro rfl; exact here known
      simp only [if_neg here, List.count_cons_of_ne other]

theorem increment_countsFrom {name : String} {counted seen : List String} (unseen : name ∉ seen)
    (items : List (String × Nat)) :
    (increment name (countsFrom counted seen items)).getD (countsFrom counted seen items) =
      countsFrom (name :: counted) seen items := by
  induction items generalizing seen with
  | nil => rfl
  | cons item items ih =>
    rw [countsFrom, countsFrom, increment]
    by_cases here : item.1 = name
    · subst here
      simp only [if_neg unseen, if_true, List.count_cons_self, Option.getD_some,
        countsFrom_of_seen List.mem_cons_self]
    · have count : List.count item.1 (name :: counted) = List.count item.1 counted :=
        List.count_cons_of_ne (Ne.symm here)
      have inner : name ∉ item.1 :: seen := List.not_mem_cons_of_ne_of_not_mem (Ne.symm here) unseen
      simp only [if_neg here, count, ← ih inner]
      cases increment name (countsFrom counted (item.1 :: seen) items) <;> rfl

theorem increment_counters (name : String) (progress : Progress) :
    (increment name progress.counters).getD progress.counters =
      counters { progress with counted := name :: progress.counted } :=
  increment_countsFrom List.not_mem_nil _

theorem name_mem_of_mem_countsFrom {counted seen : List String} {items : List (String × Nat)}
    {counter : Counter} (member : counter ∈ countsFrom counted seen items) :
    ∃ item ∈ items, item.1 = counter.name := by
  induction items generalizing seen with
  | nil => cases member
  | cons item items ih =>
    rw [countsFrom] at member
    rcases List.mem_cons.mp member with rfl | later
    · exact ⟨item, List.mem_cons_self, rfl⟩
    · obtain ⟨other, inside, same⟩ := ih later
      exact ⟨other, List.mem_cons_of_mem _ inside, same⟩

end Progress

theorem Plain.append {first second : String} (plain : Plain first) (other : Plain second) :
    Plain (first ++ second) := by
  intro c member
  rw [String.toList_append, List.mem_append] at member
  exact member.elim (plain c) (other c)

theorem plain_number (n : Nat) : Plain (number n) := by
  intro c member
  rw [number, String.toList_ofList] at member
  have digit := Nat.isDigit_of_mem_toDigits (by decide) (by decide) member
  obtain ⟨low, high⟩ := Char.isDigit_iff_toNat.mp digit
  have zero : '0'.toNat = 48 := rfl
  have nine : '9'.toNat = 57 := rfl
  simp only [isControl, Bool.or_eq_false_iff, Bool.and_eq_false_iff, decide_eq_false_iff_not]
  omega

theorem plain_intercalate {texts : List String} (plain : ∀ text ∈ texts, Plain text) :
    Plain (" ".intercalate texts) := by
  induction texts with
  | nil => simp [Plain]
  | cons text texts ih =>
    obtain ⟨here, later⟩ := List.forall_mem_cons.mp plain
    cases texts with
    | nil => rwa [String.intercalate_singleton]
    | cons other texts =>
      rw [String.intercalate_cons_cons]
      exact (here.append (by decide)).append (ih later)

theorem Counter.plain_text {counter : Counter} (plain : Plain counter.name) : Plain counter.text := by
  have opening : Plain "(" := by decide
  have stroke : Plain "/" := by decide
  have closing : Plain ")" := by decide
  exact ((((plain.append opening).append (plain_number _)).append stroke).append
    (plain_number _)).append closing

def Progress.IsPlain (progress : Progress) : Prop := ∀ item ∈ progress.items, Plain item.1

theorem Progress.IsPlain.counterLine {progress : Progress} (plain : progress.IsPlain) :
    Plain (counterLine progress.counters) := by
  refine plain_intercalate fun text member => ?_
  obtain ⟨counter, inside, rfl⟩ := List.mem_map.mp member
  obtain ⟨item, known, same⟩ := name_mem_of_mem_countsFrom inside
  exact Counter.plain_text (same ▸ plain item (List.mem_filter.mp known).1)

/-- A log and a terminal stand where a past has left them. -/
structure Follows (past : List Step) (log : Log) (screen : Screen) : Prop where
  verbose : log.verbose = verboseAfter past
  live : log.live = (liveAfter past).map Progress.counters
  plain : ∀ progress ∈ liveAfter past, progress.IsPlain
  atEnd : screen.AtEnd
  current : screen.current = [] ∨ ∃ progress ∈ liveAfter past, screen.current = progress.line

theorem takeAll_progressText {screen : Screen} (atEnd : screen.AtEnd) (log : Log)
    {progress : Progress} (plain : progress.IsPlain) :
    screen.takeAll (log.progressText progress.counters) =
      Screen.extend { lines := screen.lines } progress.line := by
  have space : Plain " " := by decide
  have word : Plain "transform" := by decide
  have label := writes_label log.coloured word
  have writes := (label.append (writes_plain space)).append (writes_plain plain.counterLine)
  have fresh : Screen.AtEnd { lines := screen.lines } := ⟨rfl, rfl⟩
  have text : log.progressText progress.counters = eraseLine ++
      (Terminal.label log.coloured "transform" ++ " " ++ Terminal.counterLine progress.counters) := by
    simp [Log.progressText, String.append_assoc]
  rw [text, Screen.takeAll_append, Screen.takeAll_eraseLine atEnd.1, writes _ fresh]
  simp [Progress.line, Terminal.counterLine]

theorem Follows.current_of_none {past : List Step} {log : Log} {screen : Screen}
    (follows : Follows past log screen) (none : liveAfter past = none) : screen.current = [] := by
  rcases follows.current with empty | ⟨progress, some, -⟩
  · exact empty
  · rw [none] at some
    cases some

theorem Follows.takeAll_dropText {past : List Step} {log : Log} {screen : Screen}
    (follows : Follows past log screen) :
    screen.takeAll log.dropText = { lines := screen.lines } := by
  rw [Log.dropText, follows.live]
  cases known : liveAfter past with
  | some progress =>
    rw [Option.map_some, Option.isSome_some, if_pos rfl]
    exact Screen.takeAll_eraseLine follows.atEnd.1
  | none =>
    have empty := follows.current_of_none known
    obtain ⟨ready, last⟩ := follows.atEnd
    rw [empty] at last
    rw [Option.map_none, Option.isSome_none, if_neg Bool.false_ne_true, Screen.takeAll_empty]
    obtain ⟨lines, current, column, pending⟩ := screen
    subst empty ready last
    rfl

theorem Follows.takeAll_line {past : List Step} {log : Log} {screen : Screen}
    (follows : Follows past log screen) {name message : String} (plainName : Plain name)
    (plainMessage : Plain message) : screen.takeAll (log.line name message) =
      { lines := screen.lines ++ [("[" ++ name ++ "] " ++ message).toList] } := by
  have space : Plain " " := by decide
  have writes := ((writes_label log.coloured plainName).append (writes_plain space)).append
    (writes_plain plainMessage)
  have fresh : Screen.AtEnd { lines := screen.lines } := ⟨rfl, rfl⟩
  have text : log.line name message = log.dropText ++
      (label log.coloured name ++ " " ++ message) ++ "\n" := by
    simp [Log.line, Log.dropText, String.append_assoc]
  rw [text, Screen.takeAll_append, Screen.takeAll_append, follows.takeAll_dropText, writes _ fresh,
    Screen.takeAll_newline rfl]
  simp [Screen.extend]

theorem startCounters_eq (items : List (String × Nat)) :
    Log.startCounters items = Progress.counters { items } := by
  have zero : ∀ (seen : List String) (shown : List (String × Nat)),
      Progress.countsFrom [] seen shown = shown.map fun item => ⟨item.1, 0, item.2⟩ := by
    intro seen shown
    induction shown generalizing seen with
    | nil => rfl
    | cons item shown ih => simp [Progress.countsFrom, ih]
  exact (zero [] _).symm

theorem follows_blank {past : List Step} {log : Log} (lines : List (List Char))
    (verbose : log.verbose = verboseAfter past)
    (live : log.live = (liveAfter past).map Progress.counters)
    (plain : ∀ progress ∈ liveAfter past, progress.IsPlain) : Follows past log { lines } :=
  ⟨verbose, live, plain, ⟨rfl, rfl⟩, .inl rfl⟩

theorem follows_progress {past : List Step} {log : Log} (lines : List (List Char))
    (verbose : log.verbose = verboseAfter past) {progress : Progress}
    (known : liveAfter past = some progress) (live : log.live = some progress.counters)
    (plain : progress.IsPlain) : Follows past log (Screen.extend { lines } progress.line) where
  verbose := verbose
  live := by rw [live, known, Option.map_some]
  plain := by simpa [known] using plain
  atEnd := ⟨rfl, rfl⟩
  current := .inr ⟨progress, known, rfl⟩

theorem Follows.increment {past : List Step} {log : Log} {screen : Screen}
    (follows : Follows past log screen) (name : String) :
    Follows (.increment name :: past) (log.step (.increment name)).1
        (screen.takeAll (log.step (.increment name)).2) ∧
      (screen.takeAll (log.step (.increment name)).2).lines = screen.lines := by
  cases known : liveAfter past with
  | none =>
    have grown : liveAfter (.increment name :: past) = none := by
      rw [liveAfter, known, Option.map_none]
    have stepped : log.step (.increment name) = (log, "") := by
      rw [Log.step, follows.live, known]
      rfl
    rw [stepped]
    refine ⟨⟨follows.verbose, ?_, by simp [grown], follows.atEnd, ?_⟩, rfl⟩
    · rw [follows.live, known, grown]
    · exact .inl (follows.current_of_none known)
  | some progress =>
    let next : Progress := { progress with counted := name :: progress.counted }
    have grown : liveAfter (.increment name :: past) = some next := by
      rw [liveAfter, known, Option.map_some]
    have plain : next.IsPlain := follows.plain progress known
    have counters : (Terminal.increment name progress.counters).getD progress.counters =
        next.counters := Progress.increment_counters name progress
    cases counted : Terminal.increment name progress.counters with
    | some more =>
      obtain rfl : more = next.counters := by rwa [counted, Option.getD_some] at counters
      have stepped : log.step (.increment name) = ({ log with live := some next.counters },
          log.progressText next.counters) := by
        rw [Log.step, follows.live, known, Option.map_some, Option.bind_some, counted]
      rw [stepped, takeAll_progressText follows.atEnd log plain]
      refine ⟨follows_progress _ ?_ grown rfl plain, rfl⟩
      exact follows.verbose
    | none =>
      have same : progress.counters = next.counters := by
        rwa [counted, Option.getD_none] at counters
      have stepped : log.step (.increment name) = (log, "") := by
        rw [Log.step, follows.live, known, Option.map_some, Option.bind_some, counted]
      rw [stepped]
      refine ⟨⟨follows.verbose, ?_, ?_, follows.atEnd, ?_⟩, rfl⟩
      · rw [follows.live, known, grown, Option.map_some, Option.map_some, same]
      · simpa [grown] using plain
      · refine follows.current.imp id ?_
        rintro ⟨other, also, line⟩
        obtain rfl := Option.some.inj (known.symm.trans also)
        exact ⟨next, grown, line.trans (by rw [Progress.line, Progress.line, same])⟩

theorem Follows.finish {past : List Step} {log : Log} {screen : Screen}
    (follows : Follows past log screen) :
    Follows (.finish :: past) (log.step .finish).1 (screen.takeAll (log.step .finish).2) ∧
      (screen.takeAll (log.step .finish).2).lines =
        screen.lines ++ ((liveAfter past).map Progress.line).toList := by
  cases known : liveAfter past with
  | none =>
    have stepped : log.step .finish = (log, "") := by
      rw [Log.step, follows.live, known]
      rfl
    rw [stepped]
    refine ⟨⟨follows.verbose, ?_, by simp [liveAfter], follows.atEnd, ?_⟩, (List.append_nil _).symm⟩
    · rw [follows.live, known]
      rfl
    · exact .inl (follows.current_of_none known)
  | some progress =>
    have stepped : log.step .finish = ({ log with live := none },
        log.progressText progress.counters ++ "\n") := by
      rw [Log.step, follows.live, known]
      rfl
    rw [stepped, Screen.takeAll_append,
      takeAll_progressText follows.atEnd log (follows.plain progress known),
      Screen.takeAll_newline rfl]
    exact ⟨follows_blank _ follows.verbose rfl (by simp [liveAfter]), rfl⟩

theorem Follows.progress {past : List Step} {log : Log} {screen : Screen}
    (follows : Follows past log screen) {items : List (String × Nat)}
    (plain : Progress.IsPlain { items }) :
    Follows (.progress items :: past) (log.step (.progress items)).1
        (screen.takeAll (log.step (.progress items)).2) ∧
      (screen.takeAll (log.step (.progress items)).2).lines = screen.lines := by
  let next : Progress := { items }
  have stepped : log.step (.progress items) = ({ log with live := some next.counters },
      log.dropText ++ log.progressText next.counters) := by rw [Log.step, startCounters_eq]
  have fresh : Screen.AtEnd { lines := screen.lines } := ⟨rfl, rfl⟩
  rw [stepped, Screen.takeAll_append, follows.takeAll_dropText,
    takeAll_progressText fresh log plain]
  refine ⟨follows_progress _ ?_ rfl rfl plain, rfl⟩
  exact follows.verbose

/-- What one step leaves: the terminal follows the longer past, and has closed the line of the step. -/
theorem Follows.step {past : List Step} {log : Log} {screen : Screen}
    (follows : Follows past log screen) {step : Step} (plain : step.IsPlain) :
    Follows (step :: past) (log.step step).1 (screen.takeAll (log.step step).2) ∧
      (screen.takeAll (log.step step).2).lines = screen.lines ++ (lineOf? past step).toList := by
  have unclosed : screen.lines = screen.lines ++ [] := (List.append_nil _).symm
  cases step with
  | log name message =>
    rw [Log.step, follows.takeAll_line plain.1 plain.2]
    exact ⟨follows_blank _ follows.verbose follows.live follows.plain, rfl⟩
  | debug name message =>
    rw [Log.step, lineOf?, follows.verbose]
    cases verboseAfter past with
    | true =>
      simp only [if_true, follows.takeAll_line plain.1 plain.2]
      exact ⟨follows_blank _ follows.verbose follows.live follows.plain, rfl⟩
    | false =>
      simp only [Bool.false_eq_true, if_false, Screen.takeAll_empty]
      exact ⟨⟨follows.verbose, follows.live, follows.plain, follows.atEnd, follows.current⟩, unclosed⟩
  | verbose on =>
    rw [Log.step, Screen.takeAll_empty]
    exact ⟨⟨rfl, follows.live, follows.plain, follows.atEnd, follows.current⟩, unclosed⟩
  | progress items => exact (follows.progress plain).imp id fun lines => lines.trans unclosed
  | increment name => exact (follows.increment name).imp id fun lines => lines.trans unclosed
  | finish => exact follows.finish
  | drop =>
    rw [Log.step, follows.takeAll_dropText]
    exact ⟨follows_blank _ follows.verbose rfl (by simp [liveAfter]), unclosed⟩

theorem run_cons (log : Log) (step : Step) (steps : List Step) : log.run (step :: steps) =
    (((log.step step).1.run steps).1, (log.step step).2 ++ ((log.step step).1.run steps).2) := rfl

theorem Follows.run {past : List Step} {log : Log} {screen : Screen}
    (follows : Follows past log screen) {steps : List Step} (plain : ∀ step ∈ steps, step.IsPlain) :
    Follows (steps.reverse ++ past) (log.run steps).1 (screen.takeAll (log.run steps).2) ∧
      (screen.takeAll (log.run steps).2).lines = screen.lines ++ linesFrom past steps := by
  induction steps generalizing past log screen with
  | nil => exact ⟨follows, (List.append_nil _).symm⟩
  | cons step steps ih =>
    obtain ⟨here, later⟩ := List.forall_mem_cons.mp plain
    obtain ⟨next, closed⟩ := follows.step here
    obtain ⟨last, rest⟩ := ih next later
    rw [run_cons, Screen.takeAll_append, List.reverse_cons, List.append_assoc, linesFrom, rest,
      closed, List.append_assoc]
    exact ⟨last, rfl⟩

theorem follows_start (coloured : Bool) : Follows [] { coloured } {} :=
  follows_blank [] rfl rfl (by simp [liveAfter])

/-- The texts of a run close the lines of its steps and no others. In the line of the cursor there is
nothing, or the progress line that is live as it stands. -/
theorem run_shows (coloured : Bool) {steps : List Step} (plain : ∀ step ∈ steps, step.IsPlain) :
    let screen := Screen.takeAll {} (Log.run { coloured } steps).2
    screen.pending = .nothing ∧ screen.lines = linesOf steps ∧
      (screen.current = [] ∨
        ∃ progress, liveAfter steps.reverse = some progress ∧ screen.current = progress.line) := by
  obtain ⟨follows, lines⟩ := (follows_start coloured).run plain
  rw [List.append_nil] at follows
  exact ⟨follows.atEnd.1, lines, follows.current⟩

/-- A line of the log between two counts, and a count for which there is no counter. -/
theorem run_shows_between :
    let steps : List Step := [.progress [("json", 2), ("markdown", 0)], .increment "json",
      .log "link" "moved", .increment "markdown", .increment "json", .finish,
      .progress [("json", 1)], .debug "entity" "none"]
    let screen := Screen.takeAll {} (Log.run {} steps).2
    (∀ step ∈ steps, step.IsPlain) ∧
      screen.lines = ["[link] moved".toList, "[transform] json(2/2)".toList] ∧
      (screen.current = [] ∨ screen.current = "[transform] json(0/1)".toList) := by
  intro steps screen
  have plain : ∀ step ∈ steps, step.IsPlain := by decide
  obtain ⟨-, lines, current⟩ := run_shows true plain
  refine ⟨plain, lines.trans (by decide), current.imp id ?_⟩
  rintro ⟨progress, ⟨⟩, line⟩
  exact line.trans (by decide)

end PageTree.Terminal
