import Mathlib.Logic.Function.Iterate
import PageTree.Proofs.Command.Batch

/-!
Batches where one worker after the other is at work. The first input that fails ends the work: what is
left behind is what the inputs before it have left, and of that input at most the beginning of its
output.
-/

namespace PageTree

namespace Terminal

def Step.module? : Step → Option String
  | .log name _ | .debug name _ => some name
  | _ => none

def Silent (name : String) (steps : List Step) : Prop := ∀ step ∈ steps, step.module? ≠ some name

def linesOfModule (name : String) (steps : List Step) : List Step :=
  steps.filter fun step => step.module? = some name

theorem linesOfModule_append (name : String) (first second : List Step) :
    linesOfModule name (first ++ second) = linesOfModule name first ++ linesOfModule name second :=
  List.filter_append first second

theorem Silent.linesOfModule {name : String} {steps : List Step} (silent : Silent name steps) :
    linesOfModule name steps = [] := by
  rw [Terminal.linesOfModule, List.filter_eq_nil_iff]
  intro step member
  simpa using silent step member

end Terminal

namespace Command

open FileSystem (Disk)
open Terminal (Step Silent linesOfModule)

def failureLine (path : Path) (e : RunError) : Step :=
  .log "error" (path.display ++ ": " ++ e.line)

namespace Batch

/-- All steps of one worker. -/
def finish (b : Batch) (disk : Disk) (folder : Path) (shared : Shared) (input : Path × InputFormat) :
    Shared :=
  ((fun work : Shared × Stage => b.advance disk folder input work.1 work.2)^[5] (shared, .waiting)).1

theorem foldl_replicate (b : Batch) (disk : Disk) (folder : Path)
    (front back : List ((Path × InputFormat) × Stage)) (input : Path × InputFormat) (count : Nat)
    (shared : Shared) (stage : Stage) :
    (List.replicate count front.length).foldl (b.turn disk folder)
        ⟨shared, front ++ (input, stage) :: back⟩ =
      let work := (fun work : Shared × Stage =>
        b.advance disk folder input work.1 work.2)^[count] (shared, stage)
      ⟨work.1, front ++ (input, work.2) :: back⟩ := by
  induction count generalizing shared stage with
  | zero => rfl
  | succ count ih =>
    have turn : b.turn disk folder ⟨shared, front ++ (input, stage) :: back⟩ front.length =
        ⟨(b.advance disk folder input shared stage).1,
          front ++ (input, (b.advance disk folder input shared stage).2) :: back⟩ := by
      simp [Batch.turn]
    rw [List.replicate_succ, List.foldl_cons, turn, ih, Function.iterate_succ_apply]

theorem shared_foldl_rounds (b : Batch) (disk : Disk) (folder : Path)
    (front : List ((Path × InputFormat) × Stage)) (inputs : List (Path × InputFormat))
    (shared : Shared) :
    ((rounds front.length inputs.length).foldl (b.turn disk folder)
        ⟨shared, front ++ inputs.map fun input => (input, .waiting)⟩).shared =
      inputs.foldl (b.finish disk folder) shared := by
  induction inputs generalizing front shared with
  | nil => rfl
  | cons input inputs ih =>
    rw [List.length_cons, rounds, List.foldl_append, List.map_cons, foldl_replicate, List.foldl_cons]
    have next := ih (front ++ [(input, ((fun work : Shared × Stage =>
      b.advance disk folder input work.1 work.2)^[5] (shared, .waiting)).2)])
      (b.finish disk folder shared input)
    rw [List.length_append, List.append_assoc] at next
    exact next

theorem workAll_nil (b : Batch) (disk : Disk) (folder : Path) (files : FileSystem)
    (inputs : List (Path × InputFormat)) : b.workAll disk folder files inputs [] =
      inputs.foldl (b.finish disk folder) { files } :=
  b.shared_foldl_rounds disk folder [] inputs { files }

/-- Why an input fails, and the files that it leaves behind. Only an output that could be opened has
changed, and holds the beginning of the text. -/
inductive Breaks (b : Batch) (disk : Disk) (folder : Path) (files : FileSystem)
    (input : Path × InputFormat) : RunError → FileSystem → Prop
  | unreadable (cause : FileError) : Breaks b disk folder files input (.unreadable input.1 cause) files
  | invalid (cause : TreeError) : Breaks b disk folder files input (.invalidInput input.1 cause) files
  | notCreated (cause : FileError) :
    Breaks b disk folder files input (.notCreated (outputPath folder input.1) cause) files
  | unwritten {place : Place} {done : Processed} {count : Nat} {cause : FileError}
    (opens : b.Opens disk folder place files input done)
    (broken : disk.breaksOff? (output place input) (done.text ++ "\n") = some (count, cause)) :
    Breaks b disk folder files input (.unwritten cause) (files.put (output place input)
      (.file ((FileSystem.firstBytes count (done.text ++ "\n").toList).map String.ofList)))

theorem silent_process {b : Batch} {files : FileSystem} {path : Path} {format : InputFormat}
    {done : Processed} (process : b.process files path format = .ok done) {name : String}
    (other : name ∉ ["transform", "heading", "link", "entity"]) : Silent name done.log := by
  rw [Batch.process] at process
  cases read : readInput ⟨files, b.cwd⟩ path format with
  | error e => simp [read, Except.map] at process
  | ok tree =>
    rw [read] at process
    obtain rfl := Except.ok.inj process
    refine List.forall_mem_cons.mpr ⟨?_, ?_⟩
    · rintro same
      cases same
      simp at other
    · intro step member
      obtain ⟨⟨pass, count⟩, -, rfl⟩ := List.mem_map.mp member
      rintro same
      cases same
      cases pass <;> simp [Pass.name] at other

variable {b : Batch} {disk : Disk} {folder : Path}

theorem breaks_of_process {files : FileSystem} {input : Path × InputFormat} {e : RunError}
    (failed : b.process files input.1 input.2 = .error e) :
    b.Breaks disk folder files input e files := by
  rw [Batch.process, readInput] at failed
  split at failed
  · next cause _ =>
    obtain rfl := Except.error.inj failed
    exact .unreadable cause
  · next text _ =>
    cases read : input.2.readTree text with
    | error cause =>
      rw [read] at failed
      obtain rfl := Except.error.inj failed
      exact .invalid cause
    | ok tree =>
      rw [read] at failed
      cases failed

theorem breaks_of_createOutput {files : FileSystem} {input : Path × InputFormat} {e : RunError}
    (failed : createOutput ⟨files, b.cwd⟩ disk (outputPath folder input.1) = .error e) :
    b.Breaks disk folder files input e files := by
  rw [createOutput] at failed
  cases created : files.create disk b.cwd (outputPath folder input.1) with
  | error cause =>
    rw [created] at failed
    obtain rfl := Except.error.inj failed
    exact .notCreated cause
  | ok result =>
    rw [created] at failed
    cases failed

theorem breaks_of_writeOutput (unlinked : disk.linked = []) {files created last : FileSystem}
    {input : Path × InputFormat} (known : InputFormat.ofPath input.1 = .ok input.2) {done : Processed}
    (process : b.process files input.1 input.2 = .ok done) {target : Place} {e : RunError}
    (opened : createOutput ⟨files, b.cwd⟩ disk (outputPath folder input.1) = .ok (target, created))
    (failed : writeOutput created disk target done.text = (last, some e)) :
    b.Breaks disk folder files input e last := by
  obtain ⟨place, opens, rfl, rfl⟩ := (createOutput_eq_ok_iff unlinked known process).mp opened
  cases broken : disk.breaksOff? (place ++ [outputName input.1]) (done.text ++ "\n") with
  | none =>
    rw [writeOutput_whole unlinked broken] at failed
    cases failed
  | some result =>
    rw [writeOutput_brokenOff unlinked broken, FileSystem.put_put] at failed
    cases failed
    exact .unwritten opens broken

theorem finish_of_failed {shared : Shared} (failed : shared.failed = true)
    (input : Path × InputFormat) : b.finish disk folder shared input = shared := by
  simp [finish, advance, failed]

theorem foldl_of_failed {shared : Shared} (failed : shared.failed = true)
    (inputs : List (Path × InputFormat)) : inputs.foldl (b.finish disk folder) shared = shared := by
  induction inputs with
  | nil => rfl
  | cons input inputs ih => rw [List.foldl_cons, finish_of_failed failed, ih]

theorem linesOfModule_last {name : String} {steps others : List Step} (silent : Silent name others)
    (last : Step) : linesOfModule name (steps ++ others ++ [last]) =
      linesOfModule name steps ++ linesOfModule name [last] := by
  rw [Terminal.linesOfModule_append, Terminal.linesOfModule_append, silent.linesOfModule,
    List.append_nil]

/-- What a worker leaves behind where nothing has failed before. -/
def Ends (b : Batch) (disk : Disk) (folder : Path) (shared next : Shared)
    (input : Path × InputFormat) : Prop :=
  linesOfModule "done" next.log = linesOfModule "done" shared.log ∧
    (next.failed = false ∧ linesOfModule "error" next.log = linesOfModule "error" shared.log ∨
      next.failed = true ∧ ∃ e, b.Breaks disk folder shared.files input e next.files ∧
        linesOfModule "error" next.log =
          linesOfModule "error" shared.log ++ [failureLine input.1 e])

section Ends

variable {shared next : Shared} {input : Path × InputFormat} {steps : List Step}
  (noDone : Silent "done" steps) (noError : Silent "error" steps)

include noDone noError

theorem ends_failing {e : RunError} (failed : next.failed = true)
    (log : next.log = shared.log ++ steps ++ [failureLine input.1 e])
    (breaks : b.Breaks disk folder shared.files input e next.files) :
    b.Ends disk folder shared next input := by
  refine ⟨?_, .inr ⟨failed, e, breaks, ?_⟩⟩
  · rw [log, linesOfModule_last noDone]
    exact List.append_nil _
  · rw [log, linesOfModule_last noError]
    rfl

theorem ends_counted {name : String} (going : next.failed = false)
    (log : next.log = shared.log ++ steps ++ [.increment name]) :
    b.Ends disk folder shared next input := by
  refine ⟨?_, .inl ⟨going, ?_⟩⟩
  · rw [log, linesOfModule_last noDone]
    exact List.append_nil _
  · rw [log, linesOfModule_last noError]
    exact List.append_nil _

end Ends

section Steps

variable (unlinked : disk.linked = [])

include unlinked

theorem ends_finish {shared : Shared} (going : shared.failed = false) {input : Path × InputFormat}
    (known : InputFormat.ofPath input.1 = .ok input.2) :
    b.Ends disk folder shared (b.finish disk folder shared input) input := by
  cases process : b.process shared.files input.1 input.2 with
  | error e =>
    have whole : b.finish disk folder shared input =
        { shared with failed := true, log := shared.log ++ [] ++ [failureLine input.1 e] } := by
      simp [finish, advance, going, process, failureLine]
    rw [whole]
    exact ends_failing (List.forall_mem_nil _) (List.forall_mem_nil _) rfl rfl
      (breaks_of_process process)
  | ok done =>
    have noDone : Silent "done" done.log := silent_process process (by decide)
    have noError : Silent "error" done.log := silent_process process (by decide)
    cases opened : createOutput ⟨shared.files, b.cwd⟩ disk (outputPath folder input.1) with
    | error e =>
      have whole : b.finish disk folder shared input = { shared with
          failed := true, log := shared.log ++ done.log ++ [failureLine input.1 e] } := by
        simp [finish, advance, going, process, opened, failureLine]
      rw [whole]
      exact ends_failing noDone noError rfl rfl (breaks_of_createOutput opened)
    | ok result =>
      obtain ⟨target, created⟩ := result
      rcases written : writeOutput created disk target done.text with ⟨last, _ | e⟩
      · have whole : b.finish disk folder shared input = { shared with
            files := last, totals := shared.totals.add done.stats,
            log := shared.log ++ done.log ++ [.increment (formatName input.2)] } := by
          simp [finish, advance, going, process, opened, written]
        rw [whole]
        exact ends_counted noDone noError going rfl
      · have whole : b.finish disk folder shared input = { shared with
            files := last, failed := true,
            log := shared.log ++ done.log ++ [failureLine input.1 e] } := by
          simp [finish, advance, going, process, opened, written, failureLine]
        rw [whole]
        exact ends_failing noDone noError rfl rfl
          (breaks_of_writeOutput unlinked known process opened written)

theorem lines_foldl {inputs : List (Path × InputFormat)}
    (known : ∀ input ∈ inputs, InputFormat.ofPath input.1 = .ok input.2) (shared : Shared) :
    linesOfModule "done" (inputs.foldl (b.finish disk folder) shared).log =
      linesOfModule "done" shared.log := by
  induction inputs generalizing shared with
  | nil => rfl
  | cons input inputs ih =>
    obtain ⟨knownHere, knownLater⟩ := List.forall_mem_cons.mp known
    rw [List.foldl_cons, ih knownLater]
    cases failed : shared.failed with
    | true => rw [finish_of_failed failed]
    | false => exact (ends_finish unlinked failed knownHere).1

/-- A run that fails stops at the first input that fails. The induction is on the inputs; up to that
one, each step is a step of the run over the inputs before. -/
theorem exists_stop {shared : Shared} {inputs : List (Path × InputFormat)}
    (known : ∀ input ∈ inputs, InputFormat.ofPath input.1 = .ok input.2)
    (going : shared.failed = false)
    (failed : (inputs.foldl (b.finish disk folder) shared).failed = true) :
    ∃ before input after e, inputs = before ++ input :: after ∧
      let reached := before.foldl (b.finish disk folder) shared
      let run := inputs.foldl (b.finish disk folder) shared
      reached.failed = false ∧ run = b.finish disk folder reached input ∧
        b.Breaks disk folder reached.files input e run.files ∧
        linesOfModule "error" run.log = linesOfModule "error" shared.log ++ [failureLine input.1 e] := by
  induction inputs generalizing shared with
  | nil => exact absurd (going.symm.trans failed) Bool.false_ne_true
  | cons input inputs ih =>
    obtain ⟨knownHere, knownLater⟩ := List.forall_mem_cons.mp known
    rw [List.foldl_cons] at failed
    obtain ⟨-, ⟨goes, quiet⟩ | ⟨stops, e, breaks, line⟩⟩ := ends_finish unlinked going knownHere
    · obtain ⟨before, stop, after, e, rfl, reached, run, breaks, lines⟩ := ih knownLater goes failed
      exact ⟨input :: before, stop, after, e, rfl, reached, run, breaks, quiet ▸ lines⟩
    · have run : (input :: inputs).foldl (b.finish disk folder) shared =
          b.finish disk folder shared input := by
        rw [List.foldl_cons, foldl_of_failed stops]
      refine ⟨[], input, inputs, e, rfl, going, run, ?_⟩
      rw [run]
      exact ⟨breaks, line⟩

end Steps

/-- Some inputs have been written, the next one has failed, and the others are left. -/
structure Halts (b : Batch) (disk : Disk) (folder : Path) (place : Place) (start : FileSystem)
    (before : List (Path × InputFormat)) (stop : Path × InputFormat)
    (after : List (Path × InputFormat)) (reached files : FileSystem) (e : RunError) : Prop where
  known : ∀ item ∈ before ++ stop :: after, InputFormat.ofPath item.1 = .ok item.2
  names : ((before ++ stop :: after).map fun item => outputName item.1).Nodup
  leads : ∀ other, start.locateFolder b.cwd folder = .ok other → other = place
  ran : ∀ item ∈ before, ∃ done, b.Ran disk folder place start item done
  gathers : b.Gathers place start before reached
  breaks : b.Breaks disk folder reached stop e files

namespace Halts

variable {place : Place} {start reached files : FileSystem} {before after : List (Path × InputFormat)}
  {stop : Path × InputFormat} {e : RunError}
  (halts : b.Halts disk folder place start before stop after reached files e)

include halts

theorem knownBefore : ∀ item ∈ before, InputFormat.ofPath item.1 = .ok item.2 :=
  fun item member => halts.known item (List.mem_append_left _ member)

theorem knownStop : InputFormat.ofPath stop.1 = .ok stop.2 :=
  halts.known stop (List.mem_append_right _ List.mem_cons_self)

theorem output_ne {item other : Path × InputFormat} (member : item ∈ before)
    (later : other ∈ stop :: after) : output place item ≠ output place other := by
  intro same
  have names := halts.names
  rw [List.map_append] at names
  refine List.disjoint_of_nodup_append names (List.mem_map_of_mem member) ?_
  rw [List.singleton_inj.mp (List.append_inj' same rfl).2]
  exact List.mem_map_of_mem later

theorem output_ne_stop {other : Path × InputFormat} (later : other ∈ after) :
    output place other ≠ output place stop := by
  intro same
  have names := halts.names
  rw [List.map_append, List.map_cons] at names
  refine (List.nodup_cons.mp names.of_append_right).1 ?_
  rw [← List.singleton_inj.mp (List.append_inj' same rfl).2]
  exact List.mem_map.mpr ⟨other, later, rfl⟩

theorem othersChanged : start.OthersChanged place stop.1 reached := by
  intro here
  by_cases written : ∃ item ∈ before, here = output place item
  · obtain ⟨item, member, rfl⟩ := written
    obtain ⟨done, ran⟩ := halts.ran item member
    have apart : outputName item.1 ≠ outputName stop.1 := fun same =>
      halts.output_ne member List.mem_cons_self (by rw [output, output, same])
    have isOutput := isOutput_of_ofPath (halts.knownBefore item member)
    refine .inr ⟨⟨_, isOutput, apart, rfl⟩, ran.free, ?_⟩
    rw [output, halts.gathers.outputs item member done ran.process]
    simp
  · exact .inl (halts.gathers.others here fun item member same => written ⟨item, member, same⟩)

theorem opens {inside : Place} {done : Processed}
    (opens : b.Opens disk folder inside reached stop done) :
    inside = place ∧ b.Opens disk folder place start stop done := by
  obtain rfl := halts.leads inside (halts.othersChanged.symm.keeps.locateFolder opens.leads)
  exact ⟨rfl, opens.of_othersChanged halts.othersChanged.symm halts.knownStop⟩

theorem files_eq : files = reached ∨ ∃ content,
    reached.find? (output place stop) ≠ some .folder ∧
      start.locate b.cwd (outputPath folder stop.1) = .ok (output place stop) ∧
      files = reached.put (output place stop) (.file content) := by
  cases halts.breaks with
  | unreadable cause => exact .inl rfl
  | invalid cause => exact .inl rfl
  | notCreated cause => exact .inl rfl
  | unwritten opens broken =>
    obtain ⟨rfl, atStart⟩ := halts.opens opens
    exact .inr ⟨_, opens.free, atStart.locate halts.knownStop, rfl⟩

theorem find?_of_ne {here : Place} (elsewhere : here ≠ output place stop) :
    files.find? here = reached.find? here := by
  rcases halts.files_eq with same | ⟨content, free, -, same⟩
  · rw [same]
  · rw [same, FileSystem.find?_put (FileSystem.ne_nil_of_find? free), if_neg elsewhere]

theorem keeps : reached.Keeps files := by
  rcases halts.files_eq with same | ⟨content, free, -, same⟩
  · rw [same]
    exact fun _ known => known
  · rw [same]
    exact FileSystem.keeps_put free _

theorem readText {item : Path × InputFormat} (member : item ∈ before) {done : Processed}
    (process : b.process start item.1 item.2 = .ok done) :
    files.readText b.cwd (outputPath folder item.1) = .ok (done.text ++ "\n") := by
  obtain ⟨located, read⟩ := halts.gathers.readText halts.knownBefore halts.ran member process
  have same := halts.find?_of_ne (halts.output_ne member List.mem_cons_self)
  exact (halts.keeps.readText (halts.othersChanged.keeps.locate located) same).trans read

theorem find?_of_outside {here : Place}
    (outside : ∀ item ∈ before, start.locate b.cwd (outputPath folder item.1) ≠ .ok here)
    (elsewhere : start.locate b.cwd (outputPath folder stop.1) ≠ .ok here) :
    files.find? here = start.find? here := by
  have before : reached.find? here = start.find? here := by
    refine halts.gathers.others here fun item member same => ?_
    obtain ⟨_, ran⟩ := halts.ran item member
    exact outside item member (same ▸ ran.locate (halts.knownBefore item member))
  rcases halts.files_eq with same | ⟨content, -, located, -⟩
  · rw [same, before]
  · refine (halts.find?_of_ne ?_).trans before
    rintro rfl
    exact elsewhere located

theorem find?_later {later : Path × InputFormat} (member : later ∈ after) {here : Place}
    (there : start.locate b.cwd (outputPath folder later.1) = .ok here) :
    files.find? here = start.find? here := by
  have known := halts.known later (List.mem_append_right _ (List.mem_cons_of_mem _ member))
  obtain ⟨-, inside, within, -, rfl⟩ :=
    (FileSystem.locate_outputPath (isOutput_of_ofPath known)).mp there
  obtain rfl := halts.leads inside within
  refine (halts.find?_of_ne (halts.output_ne_stop member)).trans ?_
  exact halts.gathers.others _ fun item first same =>
    halts.output_ne first (List.mem_cons_of_mem _ member) same.symm

end Halts

theorem exists_halts (unlinked : disk.linked = []) {place : Place} {start : FileSystem}
    {items : List (Path × InputFormat)}
    (known : ∀ item ∈ items, InputFormat.ofPath item.1 = .ok item.2)
    (names : (items.map fun item => outputName item.1).Nodup)
    (leads : ∀ other, start.locateFolder b.cwd folder = .ok other → other = place)
    (failed : (items.foldl (b.finish disk folder) { files := start }).failed = true) :
    ∃ before stop after e, items = before ++ stop :: after ∧
      let reached := before.foldl (b.finish disk folder) { files := start }
      let run := items.foldl (b.finish disk folder) { files := start }
      reached.failed = false ∧ (before ++ [stop]).foldl (b.finish disk folder) { files := start } = run ∧
        b.Halts disk folder place start before stop after reached.files run.files e ∧
        linesOfModule "error" run.log = [failureLine stop.1 e] := by
  obtain ⟨before, stop, after, e, rfl, reached, run, breaks, lines⟩ :=
    exists_stop unlinked known rfl failed
  have sublist : before.Sublist (before ++ stop :: after) := List.sublist_append_left _ _
  have first := workAll_iff unlinked leads (fun item member => known item (sublist.subset member))
    (names.sublist (sublist.map _)) []
  rw [workAll_nil] at first
  refine ⟨before, stop, after, e, rfl, reached, ?_, ?_, lines⟩
  · rw [run, List.foldl_append]
    rfl
  · exact ⟨known, names, leads, first.1.mp reached, (first.2 reached).1, breaks⟩

end Batch

end Command

end PageTree
