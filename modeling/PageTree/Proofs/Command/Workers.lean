import Mathlib.Algebra.BigOperators.Group.List.Basic
import PageTree.Proofs.Command.Outputs

/-!
The workers of a batch. A worker changes nothing but the output of its own input, which the others
neither read nor write. So it goes from stage to stage as it would alone, whatever the turns of the
workers are, and at the end each worker has counted its changes or has stopped because of an error.
-/

namespace PageTree.Command.Batch

open FileSystem (Disk)

/-- The changes that a run over one input alone counts. -/
def statsOf (b : Batch) (files : FileSystem) (input : Path × InputFormat) : Stats :=
  match b.process files input.1 input.2 with
  | .ok done => done.stats
  | .error _ => {}

theorem statsOf_eq {b : Batch} {files : FileSystem} {input : Path × InputFormat} {done : Processed}
    (process : b.process files input.1 input.2 = .ok done) : b.statsOf files input = done.stats := by
  rw [statsOf, process]

def output (place : Place) (input : Path × InputFormat) : Place := place ++ [outputName input.1]

def Stage.isCounted : Stage → Bool
  | .counted => true
  | _ => false

def counters : List (Stats → Nat) := [Stats.headings, Stats.links, Stats.paragraphs]

theorem counters_add {counter : Stats → Nat} (member : counter ∈ counters) (first second : Stats) :
    counter (first.add second) = counter first + counter second := by
  simp only [counters, List.mem_cons, List.not_mem_nil, or_false] at member
  rcases member with rfl | rfl | rfl <;> rfl

theorem counters_zero {counter : Stats → Nat} (member : counter ∈ counters) : counter {} = 0 := by
  simp only [counters, List.mem_cons, List.not_mem_nil, or_false] at member
  rcases member with rfl | rfl | rfl <;> rfl

section Worker

variable (b : Batch) (disk : Disk) (folder : Path) (place : Place) (start : FileSystem)

/-- What stands at the output is what stood there at the start, or neither is a folder. -/
def Touched (input : Path × InputFormat) (item : Option FileItem) : Prop :=
  item = start.find? (output place input) ∨
    start.find? (output place input) ≠ some .folder ∧ item ≠ some .folder

/-- What a worker has found out at a stage, and what stands at its output by then. All that it has found
out is about the files at the start. -/
inductive Progress (input : Path × InputFormat) : Option FileItem → Stage → Prop
  | waiting : Progress input (start.find? (output place input)) .waiting
  | taken : Progress input (start.find? (output place input)) .taken
  | ready {done : Processed} (process : b.process start input.1 input.2 = .ok done) :
    Progress input (start.find? (output place input)) (.ready done)
  | opened {done : Processed} (opens : b.Opens disk folder place start input done) :
    Progress input (some (.file (some ""))) (.opened (output place input) done)
  | written {done : Processed} (ran : b.Ran disk folder place start input done) :
    Progress input (some (.file (some (done.text ++ "\n")))) (.written done.stats)
  | counted {done : Processed} (ran : b.Ran disk folder place start input done) :
    Progress input (some (.file (some (done.text ++ "\n")))) .counted
  | failing {item : Option FileItem} {e : RunError}
    (fails : ∀ done, ¬ b.Ran disk folder place start input done)
    (touched : Touched place start input item) : Progress input item (.failing e)
  | stopped {item : Option FileItem} (touched : Touched place start input item) :
    Progress input item .stopped

variable {b disk folder place start} {input : Path × InputFormat}

theorem Progress.touched {item : Option FileItem} {stage : Stage}
    (progress : Progress b disk folder place start input item stage) :
    Touched place start input item := by
  cases progress with
  | waiting => exact .inl rfl
  | taken => exact .inl rfl
  | ready process => exact .inl rfl
  | opened opens => exact .inr ⟨opens.free, by simp⟩
  | written ran => exact .inr ⟨ran.free, by simp⟩
  | counted ran => exact .inr ⟨ran.free, by simp⟩
  | failing fails touched => exact touched
  | stopped touched => exact touched

variable (b disk folder place start) in
/-- What a step of one worker does to what the workers share. -/
structure Advances (input : Path × InputFormat) (shared next : Shared) (stage after : Stage) : Prop where
  progress : Progress b disk folder place start input (next.files.find? (output place input)) after
  others : ∀ other, other ≠ output place input → next.files.find? other = shared.files.find? other
  failed : next.failed = true →
    shared.failed = true ∨ ∀ done, ¬ b.Ran disk folder place start input done
  keeps : shared.failed = true → next.failed = true
  stopped : after = .stopped → next.failed = true
  totals : ∀ counter ∈ counters,
    counter next.totals + (if stage.isCounted then counter (b.statsOf start input) else 0) =
      counter shared.totals + if after.isCounted then counter (b.statsOf start input) else 0

theorem Advances.quiet {shared next : Shared} {stage after : Stage}
    (progress : Progress b disk folder place start input (shared.files.find? (output place input)) after)
    (files : next.files = shared.files) (failed : next.failed = shared.failed)
    (totals : next.totals = shared.totals) (same : after.isCounted = stage.isCounted)
    (stopped : after = .stopped → shared.failed = true) :
    Advances b disk folder place start input shared next stage after where
  progress := by rwa [files]
  others other _ := by rw [files]
  failed := by
    rw [failed]
    exact .inl
  keeps := by
    rw [failed]
    exact id
  stopped := by rwa [failed]
  totals counter _ := by rw [totals, same]

theorem Advances.wrote {shared next : Shared} {stage after : Stage} {content : Option String}
    (free : start.find? (output place input) ≠ some .folder)
    (files : next.files = shared.files.put (output place input) (.file content))
    (progress : Progress b disk folder place start input (some (.file content)) after)
    (failed : next.failed = shared.failed) (totals : next.totals = shared.totals)
    (uncounted : stage.isCounted = false) (uncounted' : after.isCounted = false)
    (going : after ≠ .stopped) :
    Advances b disk folder place start input shared next stage after where
  progress := by
    rw [files, FileSystem.find?_put (FileSystem.ne_nil_of_find? free), if_pos rfl]
    exact progress
  others other apart := by
    rw [files, FileSystem.find?_put (FileSystem.ne_nil_of_find? free), if_neg apart]
  failed := by
    rw [failed]
    exact .inl
  keeps := by
    rw [failed]
    exact id
  stopped same := absurd same going
  totals counter _ := by rw [totals, uncounted, uncounted']

section Steps

variable {shared : Shared} (known : InputFormat.ofPath input.1 = .ok input.2)

include known

theorem advances_taken (changed : start.OthersChanged place input.1 shared.files) :
    let step := b.advance disk folder input shared .taken
    Advances b disk folder place start input shared step.1 .taken step.2 := by
  have same : shared.files.find? (output place input) = start.find? (output place input) :=
    changed.find?_output
  simp only [advance]
  cases process : b.process shared.files input.1 input.2 with
  | error e =>
    have fails : ∀ done, ¬ b.Ran disk folder place start input done := fun done ran =>
      nomatch process.symm.trans (process_of_othersChanged changed known ran.process)
    exact .quiet (.failing fails (.inl same)) rfl rfl rfl rfl nofun
  | ok done =>
    have atStart := process_of_othersChanged changed.symm known process
    exact .quiet (same ▸ .ready atStart) rfl rfl rfl rfl nofun

variable (unlinked : disk.linked = [])
  (leads : ∀ other, start.locateFolder b.cwd folder = .ok other → other = place)

include unlinked leads

theorem advances_ready (changed : start.OthersChanged place input.1 shared.files) {done : Processed}
    (process : b.process start input.1 input.2 = .ok done) :
    let step := b.advance disk folder input shared (.ready done)
    Advances b disk folder place start input shared step.1 (.ready done) step.2 := by
  have same : shared.files.find? (output place input) = start.find? (output place input) :=
    changed.find?_output
  have here := process_of_othersChanged changed known process
  simp only [advance]
  cases created : createOutput ⟨shared.files, b.cwd⟩ disk (outputPath folder input.1) with
  | error e =>
    have fails : ∀ done, ¬ b.Ran disk folder place start input done := by
      intro other ran
      obtain rfl := Except.ok.inj (process.symm.trans ran.process)
      have opens := ran.toOpens.of_othersChanged changed known
      cases created.symm.trans ((createOutput_eq_ok_iff unlinked known here).mpr ⟨_, opens, rfl, rfl⟩)
    exact .quiet (.failing fails (.inl same)) rfl rfl rfl rfl nofun
  | ok result =>
    obtain ⟨target, files⟩ := result
    obtain ⟨there, opens, rfl, rfl⟩ := (createOutput_eq_ok_iff unlinked known here).mp created
    obtain rfl := leads there (changed.symm.keeps.locateFolder opens.leads)
    have atStart := opens.of_othersChanged changed.symm known
    exact .wrote atStart.free rfl (.opened atStart) rfl rfl rfl rfl nofun

omit known leads in
theorem advances_opened {done : Processed} (opens : b.Opens disk folder place start input done) :
    let step := b.advance disk folder input shared (.opened (output place input) done)
    Advances b disk folder place start input shared step.1 (.opened (output place input) done)
      step.2 := by
  simp only [advance]
  cases broken : disk.breaksOff? (output place input) (done.text ++ "\n") with
  | none =>
    rw [writeOutput_whole unlinked broken]
    exact .wrote opens.free rfl (.written ⟨opens, broken⟩) rfl rfl rfl rfl nofun
  | some result =>
    obtain ⟨count, cause⟩ := result
    have fails : ∀ done, ¬ b.Ran disk folder place start input done := by
      intro other ran
      obtain rfl := Except.ok.inj (opens.process.symm.trans ran.process)
      exact nomatch broken.symm.trans ran.whole
    rw [writeOutput_brokenOff unlinked broken]
    exact .wrote opens.free rfl (.failing fails (.inr ⟨opens.free, by simp⟩)) rfl rfl rfl rfl nofun

/-- The step of a worker. As long as it has not opened its output, the files are those at the start but
for the outputs of others. -/
theorem advances {stage : Stage}
    (progress : Progress b disk folder place start input
      (shared.files.find? (output place input)) stage)
    (changed : shared.files.find? (output place input) = start.find? (output place input) →
      start.OthersChanged place input.1 shared.files)
    (halted : stage = .stopped → shared.failed = true) :
    let step := b.advance disk folder input shared stage
    Advances b disk folder place start input shared step.1 stage step.2 := by
  generalize item : shared.files.find? (output place input) = found at progress changed
  cases progress with
  | waiting =>
    simp only [advance]
    split
    · next failed => exact .quiet (.stopped (.inl item)) rfl rfl rfl rfl fun _ => failed
    · exact .quiet (item ▸ .taken) rfl rfl rfl rfl nofun
  | taken => exact advances_taken known (changed rfl)
  | ready process => exact advances_ready known unlinked leads (changed rfl) process
  | opened opens => exact advances_opened unlinked opens
  | written ran =>
    refine ⟨item ▸ .counted ran, fun _ _ => rfl, .inl, id, nofun, fun counter member => ?_⟩
    rw [statsOf_eq ran.process]
    exact counters_add member _ _
  | counted ran => exact .quiet (item ▸ .counted ran) rfl rfl rfl rfl nofun
  | failing fails touched =>
    exact ⟨item ▸ .stopped touched, fun _ _ => rfl, fun _ => .inr fails, fun _ => rfl, fun _ => rfl,
      fun _ _ => rfl⟩
  | stopped touched => exact .quiet (item ▸ .stopped touched) rfl rfl rfl rfl halted

end Steps

end Worker

theorem exists_split {α : Type} {items : List α} {number : Nat} {item : α}
    (found : items[number]? = some item) : ∃ front back, items = front ++ item :: back ∧
      ∀ other, items.set number other = front ++ other :: back := by
  obtain ⟨within, rfl⟩ := List.getElem?_eq_some_iff.mp found
  have set : ∀ other, items.set number other = items.take number ++ other :: items.drop (number + 1) :=
    fun other => by rw [List.set_eq_take_append_cons_drop, if_pos within]
  exact ⟨_, _, (List.set_getElem_self within).symm.trans (set _), set⟩

theorem forall_mem_middle {α : Type} {front back : List α} {item : α} {P : α → Prop} :
    (∀ other ∈ front ++ item :: back, P other) ↔ P item ∧ ∀ other ∈ front ++ back, P other := by
  rw [← List.forall_mem_cons]
  exact forall_congr' fun other => imp_congr_left List.perm_middle.mem_iff

/-- What holds of the workers of some inputs after any turns. -/
structure Working (b : Batch) (disk : Disk) (folder : Path) (place : Place) (start : FileSystem)
    (inputs : List (Path × InputFormat)) (work : Work) : Prop where
  tasks : work.tasks.map Prod.fst = inputs
  each : ∀ task ∈ work.tasks, Progress b disk folder place start task.1
    (work.shared.files.find? (output place task.1)) task.2
  others : ∀ other, (∀ input ∈ inputs, other ≠ output place input) →
    work.shared.files.find? other = start.find? other
  failed : work.shared.failed = true →
    ∃ input ∈ inputs, ∀ done, ¬ b.Ran disk folder place start input done
  stopped : ∀ task ∈ work.tasks, task.2 = .stopped → work.shared.failed = true
  totals : ∀ counter ∈ counters, counter work.shared.totals =
    (work.tasks.map fun task => if task.2.isCounted then counter (b.statsOf start task.1) else 0).sum

section Working

variable {b : Batch} {disk : Disk} {folder : Path} {place : Place} {start : FileSystem}
  {inputs : List (Path × InputFormat)}

theorem working_waiting : Working b disk folder place start inputs
    ⟨{ files := start }, inputs.map fun input => (input, .waiting)⟩ where
  tasks := by
    rw [List.map_map]
    exact List.map_id inputs
  each := List.forall_mem_map.mpr fun _ _ => .waiting
  others _ _ := rfl
  failed := nofun
  stopped := List.forall_mem_map.mpr fun _ _ => nofun
  totals counter member := by
    rw [counters_zero member, List.map_map]
    exact (List.sum_eq_zero (List.forall_mem_map.mpr fun _ _ => rfl)).symm

theorem Working.othersChanged {work : Work}
    (working : Working b disk folder place start inputs work)
    (known : ∀ input ∈ inputs, InputFormat.ofPath input.1 = .ok input.2) {input : Path × InputFormat}
    (same : work.shared.files.find? (output place input) = start.find? (output place input)) :
    start.OthersChanged place input.1 work.shared.files := by
  intro here
  by_cases written : ∃ other ∈ inputs, here = output place other
  · obtain ⟨other, isInput, rfl⟩ := written
    by_cases own : outputName other.1 = outputName input.1
    · left
      rwa [output, own]
    · obtain ⟨task, isTask, rfl⟩ := List.mem_map.mp (working.tasks ▸ isInput)
      rcases (working.each task isTask).touched with still | free
      · exact .inl still
      · exact .inr ⟨⟨_, isOutput_of_ofPath (known _ isInput), own, rfl⟩, free⟩
  · exact .inl (working.others here fun other isInput same => written ⟨other, isInput, same⟩)

/-- A step of one worker, between those in front and those behind. -/
theorem Working.replace {shared next : Shared} {front back : List ((Path × InputFormat) × Stage)}
    {input : Path × InputFormat} {stage after : Stage}
    (working : Working b disk folder place start inputs ⟨shared, front ++ (input, stage) :: back⟩)
    (distinct : (inputs.map fun input => outputName input.1).Nodup)
    (step : Advances b disk folder place start input shared next stage after) :
    Working b disk folder place start inputs ⟨next, front ++ (input, after) :: back⟩ := by
  have split : front.map Prod.fst ++ input :: back.map Prod.fst = inputs := by
    rw [← working.tasks, List.map_append]
    rfl
  have isInput : input ∈ inputs := split ▸ List.mem_append_right _ List.mem_cons_self
  have apart : ∀ task ∈ front ++ back, output place task.1 ≠ output place input := by
    intro task member same
    rw [← split, List.map_append, List.map_cons, List.nodup_middle] at distinct
    refine (List.nodup_cons.mp distinct).1 ?_
    rw [← List.map_append, ← List.map_append, List.map_map]
    refine List.mem_map.mpr ⟨task, member, ?_⟩
    exact List.singleton_inj.mp (List.append_inj' same rfl).2
  obtain ⟨-, each⟩ := forall_mem_middle.mp working.each
  obtain ⟨-, stopped⟩ := forall_mem_middle.mp working.stopped
  constructor
  case tasks => rwa [List.map_append]
  case each =>
    refine forall_mem_middle.mpr ⟨step.progress, fun task member => ?_⟩
    rw [step.others _ (apart task member)]
    exact each task member
  case others =>
    intro other outside
    rw [step.others other (outside input isInput)]
    exact working.others other outside
  case failed =>
    intro failed
    rcases step.failed failed with earlier | fails
    · exact working.failed earlier
    · exact ⟨input, isInput, fails⟩
  case stopped =>
    exact forall_mem_middle.mpr
      ⟨step.stopped, fun task member halted => step.keeps (stopped task member halted)⟩
  case totals =>
    intro counter member
    have own := step.totals counter member
    have sum := working.totals counter member
    simp only [List.map_append, List.map_cons, List.sum_append, List.sum_cons] at sum ⊢
    omega

variable (unlinked : disk.linked = [])
  (leads : ∀ other, start.locateFolder b.cwd folder = .ok other → other = place)
  (known : ∀ input ∈ inputs, InputFormat.ofPath input.1 = .ok input.2)
  (distinct : (inputs.map fun input => outputName input.1).Nodup)

include unlinked leads known distinct

theorem Working.turn {work : Work} (working : Working b disk folder place start inputs work)
    (number : Nat) : Working b disk folder place start inputs (b.turn disk folder work number) := by
  rw [Batch.turn]
  split
  · exact working
  · next input stage found =>
    obtain ⟨front, back, split, set⟩ := exists_split found
    obtain ⟨shared, tasks⟩ := work
    obtain rfl : tasks = front ++ (input, stage) :: back := split
    have isTask : (input, stage) ∈ front ++ (input, stage) :: back :=
      List.mem_append_right _ List.mem_cons_self
    have isInput : input ∈ inputs := by
      rw [← working.tasks]
      exact List.mem_map_of_mem isTask
    have step := advances (known input isInput) unlinked leads (working.each _ isTask)
      (working.othersChanged known) (working.stopped _ isTask)
    simp only [set]
    exact working.replace distinct step

theorem Working.turns {work : Work} (working : Working b disk folder place start inputs work)
    (turns : List Nat) :
    Working b disk folder place start inputs (turns.foldl (b.turn disk folder) work) := by
  induction turns generalizing work with
  | nil => exact working
  | cons number turns ih => exact ih (working.turn unlinked leads known distinct number)

end Working

/-- How many steps a worker has taken at least. -/
def Stage.rank : Stage → Nat
  | .waiting => 0
  | .taken => 1
  | .ready _ => 2
  | .opened _ _ => 3
  | .written _ => 4
  | .failing _ => 4
  | .counted => 5
  | .stopped => 5

theorem rank_advance (b : Batch) (disk : Disk) (folder : Path) (input : Path × InputFormat)
    (shared : Shared) (stage : Stage) :
    min 5 (stage.rank + 1) ≤ (b.advance disk folder input shared stage).2.rank := by
  cases stage <;> simp only [advance]
  case waiting => split <;> simp [Stage.rank]
  case taken => split <;> simp [Stage.rank]
  case ready => split <;> simp [Stage.rank]
  case opened => split <;> simp [Stage.rank]
  all_goals simp [Stage.rank]

theorem rank_turns (b : Batch) (disk : Disk) (folder : Path) {number : Nat} (turns : List Nat)
    {work : Work} {task : (Path × InputFormat) × Stage} (found : work.tasks[number]? = some task) :
    ∃ last, (turns.foldl (b.turn disk folder) work).tasks[number]? = some last ∧
      min 5 (task.2.rank + turns.count number) ≤ last.2.rank := by
  induction turns generalizing work task with
  | nil => exact ⟨task, found, Nat.min_le_right _ _⟩
  | cons next turns ih =>
    rw [List.foldl_cons]
    by_cases own : next = number
    · subst own
      have step := rank_advance b disk folder task.1 work.shared task.2
      obtain ⟨within, -⟩ := List.getElem?_eq_some_iff.mp found
      have now : (b.turn disk folder work next).tasks[next]? =
          some (task.1, (b.advance disk folder task.1 work.shared task.2).2) := by
        rw [Batch.turn, found]
        exact List.getElem?_set_self within
      obtain ⟨last, ends, rank⟩ := ih now
      dsimp only at rank
      refine ⟨last, ends, ?_⟩
      rw [List.count_cons_self]
      omega
    · have now : (b.turn disk folder work next).tasks[number]? = some task := by
        rw [Batch.turn]
        split
        · exact found
        · exact (List.getElem?_set_ne own).trans found
      obtain ⟨last, ends, rank⟩ := ih now
      refine ⟨last, ends, ?_⟩
      rwa [List.count_cons_of_ne own]

theorem count_rounds (number first count : Nat) : (rounds first count).count number =
    if first ≤ number ∧ number < first + count then 5 else 0 := by
  induction count generalizing first with
  | zero =>
    rw [if_neg (by omega)]
    rfl
  | succ count ih =>
    rw [rounds, List.count_append, List.count_replicate, ih]
    simp only [beq_iff_eq]
    split_ifs <;> omega

section Finished

variable {b : Batch} {disk : Disk} {folder : Path} {place : Place} {start : FileSystem}
  {inputs : List (Path × InputFormat)} (unlinked : disk.linked = [])
  (leads : ∀ other, start.locateFolder b.cwd folder = .ok other → other = place)
  (known : ∀ input ∈ inputs, InputFormat.ofPath input.1 = .ok input.2)
  (distinct : (inputs.map fun input => outputName input.1).Nodup) (turns : List Nat)

include unlinked leads known distinct

/-- After all turns each worker has counted its changes or has stopped. -/
theorem exists_finished : ∃ work, work.shared = b.workAll disk folder start inputs turns ∧
    Working b disk folder place start inputs work ∧
      ∀ task ∈ work.tasks, task.2 = .counted ∨ task.2 = .stopped := by
  let first : Work := ⟨{ files := start }, inputs.map fun input => (input, .waiting)⟩
  let turns := turns ++ rounds 0 inputs.length
  have working : Working b disk folder place start inputs (turns.foldl (b.turn disk folder) first) :=
    working_waiting.turns unlinked leads known distinct turns
  refine ⟨_, rfl, working, fun task member => ?_⟩
  obtain ⟨number, within, rfl⟩ := List.getElem_of_mem member
  have short : number < inputs.length := by
    rwa [← working.tasks, List.length_map]
  have waiting : first.tasks[number]? = some (inputs[number], .waiting) := by
    simp [first, short]
  obtain ⟨last, ends, rank⟩ := rank_turns b disk folder turns waiting
  rw [List.getElem?_eq_getElem within, Option.some.injEq] at ends
  have enough : 5 ≤ turns.count number := by
    rw [List.count_append, count_rounds, if_pos ⟨Nat.zero_le _, by omega⟩]
    exact Nat.le_add_left 5 _
  rw [ends]
  cases stage : last.2 with
  | counted => exact .inl rfl
  | stopped => exact .inr rfl
  | _ =>
    rw [stage] at rank
    simp only [Stage.rank] at rank
    omega

end Finished

end PageTree.Command.Batch
