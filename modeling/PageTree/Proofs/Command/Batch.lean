import Mathlib.Data.List.Nodup
import Mathlib.Data.List.Perm.Basic
import PageTree.Proofs.Command.Workers

/-!
A run over several inputs does what runs over each of them do. Two outputs of one name are refused
before anything is read, so no input is the output of another one, and every input is read as it was
at the start, whatever the order of the inputs and of the turns of the workers.
-/

namespace PageTree

namespace Command

open FileSystem (Disk)
open Terminal (plural)

namespace Batch

/-- What a run over some inputs leaves behind, when each of them succeeds. -/
structure Gathers (b : Batch) (place : Place) (start : FileSystem) (inputs : List (Path × InputFormat))
    (result : FileSystem) : Prop where
  outputs : ∀ input ∈ inputs, ∀ done, b.process start input.1 input.2 = .ok done →
    result.find? (place ++ [outputName input.1]) = some (.file (some (done.text ++ "\n")))
  others : ∀ other, (∀ input ∈ inputs, other ≠ place ++ [outputName input.1]) →
    result.find? other = start.find? other

variable {b : Batch} {disk : Disk} {folder : Path} {place : Place} {start : FileSystem}
  {inputs : List (Path × InputFormat)}

/-- A run succeeds when each input alone does, and then it gathers what they give. -/
theorem workAll_iff (unlinked : disk.linked = [])
    (leads : ∀ other, start.locateFolder b.cwd folder = .ok other → other = place)
    (known : ∀ input ∈ inputs, InputFormat.ofPath input.1 = .ok input.2)
    (distinct : (inputs.map fun input => outputName input.1).Nodup) (turns : List Nat) :
    let run := b.workAll disk folder start inputs turns
    (run.failed = false ↔ ∀ input ∈ inputs, ∃ done, b.Ran disk folder place start input done) ∧
      (run.failed = false → b.Gathers place start inputs run.files ∧ ∀ counter ∈ counters,
        counter run.totals = (inputs.map fun input => counter (b.statsOf start input)).sum) := by
  obtain ⟨work, same, working, finished⟩ := exists_finished unlinked leads known distinct turns
  rw [← same]
  have counted : work.shared.failed = false → ∀ task ∈ work.tasks, task.2 = .counted := by
    intro going task member
    refine (finished task member).resolve_right fun stopped => ?_
    exact Bool.false_ne_true (going.symm.trans (working.stopped task member stopped))
  have each : work.shared.failed = false → ∀ input ∈ inputs, ∃ done,
      b.Ran disk folder place start input done ∧
        work.shared.files.find? (output place input) = some (.file (some (done.text ++ "\n"))) := by
    intro going input member
    obtain ⟨⟨_, stage⟩, isTask, rfl⟩ := List.mem_map.mp (working.tasks ▸ member)
    have progress := working.each _ isTask
    obtain rfl : stage = .counted := counted going _ isTask
    generalize work.shared.files.find? (output place _) = item at progress ⊢
    cases progress with
    | @counted done ran => exact ⟨done, ran, rfl⟩
  refine ⟨⟨fun going input member => ?_, fun ran => ?_⟩, fun going => ⟨⟨?_, ?_⟩, ?_⟩⟩
  · obtain ⟨done, ran, -⟩ := each going input member
    exact ⟨done, ran⟩
  · rw [Bool.eq_false_iff]
    intro failed
    obtain ⟨input, member, fails⟩ := working.failed failed
    obtain ⟨done, here⟩ := ran input member
    exact fails done here
  · intro input member done process
    obtain ⟨other, ran, held⟩ := each going input member
    obtain rfl := Except.ok.inj (process.symm.trans ran.process)
    exact held
  · exact working.others
  · intro counter member
    rw [working.totals counter member, ← working.tasks, List.map_map]
    refine congrArg List.sum (List.map_congr_left fun task isTask => ?_)
    rw [counted going task isTask]
    rfl

theorem exists_leads (files : FileSystem) (cwd : Place) (folder : Path) :
    ∃ place, ∀ other, files.locateFolder cwd folder = .ok other → other = place := by
  cases files.locateFolder cwd folder with
  | error cause => exact ⟨[], nofun⟩
  | ok place => exact ⟨place, fun other same => (Except.ok.inj same).symm⟩

theorem Gathers.readText {result : FileSystem} (gathers : b.Gathers place start inputs result)
    (known : ∀ input ∈ inputs, InputFormat.ofPath input.1 = .ok input.2)
    (each : ∀ input ∈ inputs, ∃ done, b.Ran disk folder place start input done)
    {input : Path × InputFormat} (member : input ∈ inputs) {done : Processed}
    (process : b.process start input.1 input.2 = .ok done) :
    start.locate b.cwd (outputPath folder input.1) = .ok (place ++ [outputName input.1]) ∧
      result.readText b.cwd (outputPath folder input.1) = .ok (done.text ++ "\n") := by
  obtain ⟨_, ran⟩ := each input member
  have leads := ran.locate (known input member)
  have keeps : start.Keeps result := by
    intro other isFolder
    have outside : ∀ later ∈ inputs, other ≠ place ++ [outputName later.1] := by
      rintro later written rfl
      obtain ⟨_, laterRan⟩ := each later written
      exact laterRan.free isFolder
    exact (gathers.others other outside).trans isFolder
  exact ⟨leads, FileSystem.readText_of_find? (keeps.locate leads)
    (FileSystem.namesFolder_outputPath (isOutput_of_ofPath (known input member)))
    (gathers.outputs input member done process)⟩

/-- Runs in different orders leave the same files behind. -/
theorem Gathers.find?_eq {result last : FileSystem} {others : List (Path × InputFormat)}
    (gathers : b.Gathers place start inputs result) (reordered : b.Gathers place start others last)
    (perm : others.Perm inputs)
    (each : ∀ input ∈ inputs, ∃ done, b.Ran disk folder place start input done) (other : Place) :
    last.find? other = result.find? other := by
  by_cases written : ∃ input ∈ inputs, other = place ++ [outputName input.1]
  · obtain ⟨input, member, rfl⟩ := written
    obtain ⟨done, ran⟩ := each input member
    rw [gathers.outputs input member done ran.process,
      reordered.outputs input (perm.symm.subset member) done ran.process]
  · have outside : ∀ input ∈ inputs, other ≠ place ++ [outputName input.1] :=
      fun input member same => written ⟨input, member, same⟩
    rw [gathers.others other outside,
      reordered.others other fun input member => outside input (perm.subset member)]

end Batch

theorem exists_perm_of_formats {inputs others : List Path} (perm : others.Perm inputs)
    {items : List (Path × InputFormat)} (known : formats inputs = .ok items) :
    ∃ reordered, formats others = .ok reordered ∧ reordered.Perm items := by
  obtain ⟨rfl, each⟩ := formats_eq_ok_iff.mp known
  obtain ⟨reordered, paths, permItems⟩ := (congrFun₂ (List.eq_map_comp_perm Prod.fst) _ _).mpr perm
  refine ⟨reordered, formats_eq_ok_iff.mpr ⟨paths.symm, fun item member => ?_⟩, permItems⟩
  exact each item (permItems.subset member)

def target (folder input : Path) : List Path.Component := (outputPath folder input).components

theorem collision?_eq_none_iff {folder : Path} {seen inputs : List Path} :
    collision? folder seen inputs = none ↔ (inputs.map (target folder)).Nodup ∧
      ∀ input ∈ inputs, ∀ earlier ∈ seen, target folder earlier ≠ target folder input := by
  induction inputs generalizing seen with
  | nil => simp [collision?]
  | cons path inputs ih =>
    rw [collision?]
    split
    · next earlier found =>
      have same : target folder earlier = target folder path := by
        simpa [target] using List.find?_some found
      have member := List.mem_of_find?_eq_some found
      constructor
      · intro none
        cases none
      · rintro ⟨-, apart⟩
        exact absurd same (apart path List.mem_cons_self earlier member)
    · next none =>
      have fresh : ∀ earlier ∈ seen, target folder earlier ≠ target folder path := by
        simpa [target] using none
      rw [ih, List.map_cons, List.nodup_cons, List.forall_mem_cons]
      constructor
      · rintro ⟨distinct, apart⟩
        refine ⟨⟨?_, distinct⟩, fresh, ?_⟩
        · intro member
          obtain ⟨input, later, same⟩ := List.mem_map.mp member
          exact apart input later path (by simp) same.symm
        · exact fun input later earlier before => apart input later earlier (by simp [before])
      · rintro ⟨⟨alone, distinct⟩, -, apart⟩
        refine ⟨distinct, fun input later earlier before => ?_⟩
        rcases List.mem_append.mp before with first | last
        · exact apart input later earlier first
        · obtain rfl := List.mem_singleton.mp last
          exact fun same => alone (List.mem_map.mpr ⟨input, later, same.symm⟩)

theorem nodup_outputName {folder : Path} {inputs : List Path}
    (distinct : (inputs.map (target folder)).Nodup) : (inputs.map outputName).Nodup := by
  have same : inputs.map (target folder) =
      (inputs.map outputName).map fun name => (folder.join name).components := by
    rw [List.map_map]
    rfl
  rw [same] at distinct
  exact List.Nodup.of_map _ distinct

section Runs

variable {w : Workspace} {config : Config} {parseYaml : String → Option Json}
  {arguments : TransformArguments} {base : PageContext} {disk : Disk} {turns : List Nat}
  {folder : Path} {inputs : List Path} {items : List (Path × InputFormat)}

theorem runTransform_eq_runBatch (context : config.pageContext w parseYaml = .ok base)
    (into : arguments.output = some folder) (known : formats inputs = .ok items) :
    runTransform w config parseYaml { arguments with inputs } disk turns =
      runBatch (batchOf w.cwd config arguments base) disk turns w.files items folder := by
  have enough : ¬ (1 < inputs.length && arguments.output.isNone) := by simp [into]
  rw [runTransform, if_neg enough, known, context]
  cases arguments
  subst into
  rfl

theorem exists_of_runTransform (into : arguments.output = some folder)
    (done : (runTransform w config parseYaml arguments disk turns).error = none) :
    ∃ base items, config.pageContext w parseYaml = .ok base ∧
      formats arguments.inputs = .ok items := by
  have enough : ¬ (1 < arguments.inputs.length && arguments.output.isNone) := by simp [into]
  rw [runTransform, if_neg enough] at done
  cases known : formats arguments.inputs with
  | error e => simp [known, Outcome.failed] at done
  | ok items =>
    cases context : config.pageContext w parseYaml with
    | error cause => simp [known, context, Outcome.failed] at done
    | ok base => exact ⟨base, items, rfl, rfl⟩

theorem error_runBatch_eq_none_iff {b : Batch} {files : FileSystem} :
    (runBatch b disk turns files items folder).error = none ↔
      collision? folder [] (items.map Prod.fst) = none ∧
        ∃ start, files.makeFolderAll b.cwd folder = .ok start ∧
          (b.workAll disk folder start items turns).failed = false := by
  rw [runBatch]
  cases collision? folder [] (items.map Prod.fst) with
  | some e => simp [Outcome.failed]
  | none =>
    cases files.makeFolderAll b.cwd folder with
    | error cause => simp [Outcome.failed]
    | ok start => cases failed : (b.workAll disk folder start items turns).failed <;> simp [failed]

theorem runBatch_of_done {b : Batch} {files start : FileSystem}
    (distinct : collision? folder [] (items.map Prod.fst) = none)
    (made : files.makeFolderAll b.cwd folder = .ok start)
    (done : (b.workAll disk folder start items turns).failed = false) :
    let outcome := runBatch b disk turns files items folder
    let run := b.workAll disk folder start items turns
    outcome.files = run.files ∧ outcome.log.getLast? = some (doneLine items.length run.totals) := by
  intro outcome run
  let steps := .progress (progressItems items) :: run.log
  let last := doneLine items.length run.totals
  have same : outcome = { files := run.files, log := steps ++ [.finish, last] } := by
    simp only [outcome, run, runBatch, distinct, made, done]
    rfl
  rw [same]
  exact ⟨rfl, List.getLast?_append_of_ne_nil _ (List.cons_ne_nil _ _)⟩

/-- A run into a folder, in one order of its inputs and of the turns, when each input alone
succeeds. -/
theorem runTransform_of_ran (unlinked : disk.linked = [])
    (context : config.pageContext w parseYaml = .ok base) (into : arguments.output = some folder)
    (known : formats inputs = .ok items) (distinct : (inputs.map (target folder)).Nodup)
    {start : FileSystem} (made : w.files.makeFolderAll w.cwd folder = .ok start) {place : Place}
    (leads : ∀ other, start.locateFolder w.cwd folder = .ok other → other = place)
    (turns : List Nat) :
    let b := batchOf w.cwd config arguments base
    let outcome := runTransform w config parseYaml { arguments with inputs } disk turns
    (outcome.error = none ↔ ∀ input ∈ items, ∃ done, b.Ran disk folder place start input done) ∧
      (outcome.error = none → b.Gathers place start items outcome.files ∧
        ∃ totals, outcome.log.getLast? = some (doneLine items.length totals) ∧
          ∀ counter ∈ Batch.counters,
            counter totals = (items.map fun item => counter (b.statsOf start item)).sum) := by
  intro b outcome
  obtain ⟨paths, each⟩ := formats_eq_ok_iff.mp known
  have free : collision? folder [] (items.map Prod.fst) = none :=
    collision?_eq_none_iff.mpr ⟨by rwa [paths], by simp⟩
  have names : (items.map fun input => outputName input.1).Nodup := by
    have plain := nodup_outputName distinct
    rwa [← paths, List.map_map] at plain
  have same : outcome = runBatch b disk turns w.files items folder :=
    runTransform_eq_runBatch context into known
  obtain ⟨iff, gathers⟩ := Batch.workAll_iff (b := b) unlinked leads each names turns
  have error : outcome.error = none ↔ (b.workAll disk folder start items turns).failed = false := by
    rw [same, error_runBatch_eq_none_iff]
    constructor
    · rintro ⟨-, other, remade, done⟩
      obtain rfl := Except.ok.inj (remade.symm.trans made)
      exact done
    · exact fun done => ⟨free, start, made, done⟩
  refine ⟨error.trans iff, fun done => ?_⟩
  obtain ⟨files, log⟩ := runBatch_of_done free made (error.mp done)
  obtain ⟨gathered, sums⟩ := gathers (error.mp done)
  rw [same]
  exact ⟨by rwa [files], _, log, sums⟩

/-- What a run into a folder needs to succeed. -/
theorem exists_ran (unlinked : disk.linked = []) (into : arguments.output = some folder)
    (given : arguments.inputs ≠ [])
    (done : (runTransform w config parseYaml arguments disk turns).error = none) :
    ∃ base items start place, config.pageContext w parseYaml = .ok base ∧
      formats arguments.inputs = .ok items ∧ (arguments.inputs.map (target folder)).Nodup ∧
      w.files.makeFolderAll w.cwd folder = .ok start ∧
      start.locateFolder w.cwd folder = .ok place ∧ start.find? place = some .folder ∧
      ∀ input ∈ items, ∃ done,
        (batchOf w.cwd config arguments base).Ran disk folder place start input done := by
  obtain ⟨base, items, context, known⟩ := exists_of_runTransform into done
  obtain ⟨paths, -⟩ := formats_eq_ok_iff.mp known
  have ended := done
  rw [runTransform_eq_runBatch context into known, error_runBatch_eq_none_iff, paths] at ended
  obtain ⟨free, start, made, -⟩ := ended
  have distinct := (collision?_eq_none_iff.mp free).1
  obtain ⟨place, leads⟩ := Batch.exists_leads start w.cwd folder
  have ran := (runTransform_of_ran unlinked context into known distinct made leads turns).1.mp done
  obtain ⟨item, member⟩ : ∃ item, item ∈ items := by
    refine List.exists_mem_of_ne_nil _ ?_
    rintro rfl
    exact given paths.symm
  obtain ⟨_, first⟩ := ran item member
  exact ⟨base, items, start, place, context, known, distinct, made, first.leads, first.isFolder, ran⟩

end Runs

theorem runTransform_of_process {w : Workspace} {config : Config} {parseYaml : String → Option Json}
    {base : PageContext} (context : config.pageContext w parseYaml = .ok base)
    (arguments : TransformArguments) {input : Path × InputFormat}
    (known : InputFormat.ofPath input.1 = .ok input.2) {done : Batch.Processed}
    (process : (batchOf w.cwd config arguments base).process w.files input.1 input.2 = .ok done) :
    runTransform w config parseYaml (single arguments input.1) =
      { files := w.files, printed := done.text ++ "\n", log := done.log } := by
  rw [runTransform_single context arguments known, printOne]
  simp only [process]

/-- A run into a folder gives what each of its inputs gives alone, in every order of the inputs, and
whatever the turns of the workers are. What it reports is the sum of what they count. -/
theorem runTransform_into {w : Workspace} {config : Config} {parseYaml : String → Option Json}
    {arguments : TransformArguments} {disk : Disk} (unlinked : disk.linked = []) {turns : List Nat}
    {folder : Path} (into : arguments.output = some folder) (given : arguments.inputs ≠ [])
    (done : (runTransform w config parseYaml arguments disk turns).error = none) :
    ∃ base items start place, config.pageContext w parseYaml = .ok base ∧
      formats arguments.inputs = .ok items ∧
      w.files.makeFolderAll w.cwd folder = .ok start ∧ w.files.Grows start ∧
      start.locateFolder w.cwd folder = .ok place ∧ start.find? place = some .folder ∧
      ∀ inputs, inputs.Perm arguments.inputs → ∀ turns',
        let outcome := runTransform w config parseYaml { arguments with inputs } disk turns'
        let stats := items.map ((batchOf w.cwd config arguments base).statsOf start)
        outcome.error = none ∧
          (∀ path ∈ inputs,
            let alone := runTransform ⟨start, w.cwd⟩ config parseYaml (single arguments path)
            alone.error = none ∧
              start.locate w.cwd (outputPath folder path) = .ok (place ++ [outputName path]) ∧
              outcome.files.readText w.cwd (outputPath folder path) = .ok alone.printed) ∧
          (∀ other, (∀ path ∈ inputs, other ≠ place ++ [outputName path]) →
            outcome.files.find? other = start.find? other) ∧
          (∀ other, outcome.files.find? other =
            (runTransform w config parseYaml arguments disk turns).files.find? other) ∧
          outcome.log.getLast? = some (.log "done" (plural arguments.inputs.length "file" ++ ": "
            ++ plural (stats.map Stats.headings).sum "heading" ++ " classified, "
            ++ plural (stats.map Stats.links).sum "link" ++ " rewritten, "
            ++ plural (stats.map Stats.paragraphs).sum "paragraph" ++ " encoded")) := by
  obtain ⟨base, items, start, place, context, known, distinct, made, leads, isFolder, each⟩ :=
    exists_ran unlinked into given done
  let b := batchOf w.cwd config arguments base
  have grows := FileSystem.grows_makeFolderAll made
  have contextStart : config.pageContext ⟨start, w.cwd⟩ parseYaml = .ok base :=
    Config.pageContext_of_same (fun _ _ _ read => grows.readText read) context
  have only : ∀ other, start.locateFolder w.cwd folder = .ok other → other = place :=
    fun other same => Except.ok.inj (same.symm.trans leads)
  obtain ⟨gathered, -⟩ :=
    (runTransform_of_ran unlinked context into known distinct made only turns).2 done
  refine ⟨base, items, start, place, context, known, made, grows, leads, isFolder, ?_⟩
  intro inputs perm turns' outcome stats
  obtain ⟨reordered, knownHere, permItems⟩ := exists_perm_of_formats perm known
  obtain ⟨paths, formatsHere⟩ := formats_eq_ok_iff.mp knownHere
  have ranHere : ∀ input ∈ reordered, ∃ done, b.Ran disk folder place start input done :=
    fun input member => each input (permItems.subset member)
  have distinctHere : (inputs.map (target folder)).Nodup := (perm.map _).nodup_iff.mpr distinct
  obtain ⟨iff, gathers⟩ :=
    runTransform_of_ran unlinked context into knownHere distinctHere made only turns'
  have ended : outcome.error = none := iff.mpr ranHere
  obtain ⟨gatheredHere, totals, log, sums⟩ := gathers ended
  refine ⟨ended, ?_, ?_, ?_, ?_⟩
  · intro path member alone
    rw [← paths] at member
    obtain ⟨input, memberHere, rfl⟩ := List.mem_map.mp member
    obtain ⟨done, ran⟩ := ranHere input memberHere
    have run : alone = { files := start, printed := done.text ++ "\n", log := done.log } :=
      runTransform_of_process contextStart arguments (formatsHere input memberHere) ran.process
    rw [run]
    exact ⟨rfl, gatheredHere.readText formatsHere ranHere memberHere ran.process⟩
  · intro other outside
    apply gatheredHere.others other
    intro input member
    exact outside input.1 (paths ▸ List.mem_map_of_mem member)
  · exact gathered.find?_eq gatheredHere permItems each
  · have count : reordered.length = arguments.inputs.length := by
      rw [← perm.length_eq, ← paths, List.length_map]
    have sum : ∀ counter ∈ Batch.counters, counter totals = (stats.map counter).sum := by
      intro counter member
      rw [sums counter member, List.map_map]
      exact (permItems.map _).sum_eq
    rw [log, doneLine, count, sum Stats.headings (by simp [Batch.counters]),
      sum Stats.links (by simp [Batch.counters]), sum Stats.paragraphs (by simp [Batch.counters])]

/-- An input in the output folder is its own output. The workers take turns in one run, and work one
after the other in the other one. -/
theorem runTransform_into_itself :
    let tree := "\x7b\"type\":\"root\",\"children\":[]\x7d"
    let w : Workspace := ⟨⟨[(["out".toList], .folder),
      (["out".toList, "a.json".toList], .file (some tree)),
      (["b.json".toList], .file (some tree))]⟩, []⟩
    let run (inputs : List Path) (turns : List Nat) := runTransform w {} (fun _ => none)
      { inputs, output := some "out".toList } {} turns
    let there := run ["out/a.json".toList, "b.json".toList] [0, 1, 1, 0, 1, 0]
    let back := run ["b.json".toList, "out/a.json".toList] []
    there.error = none ∧ back.error = none ∧
      ∀ place, back.files.find? place = there.files.find? place := by
  intro tree w run there back
  have done : there.error = none := by
    rw [← Option.isNone_iff_eq_none]
    decide +kernel
  obtain ⟨_, _, _, _, -, -, -, -, -, -, each⟩ := runTransform_into rfl rfl (by simp) done
  have swap : ["b.json".toList, "out/a.json".toList].Perm ["out/a.json".toList, "b.json".toList] :=
    .swap _ _ []
  obtain ⟨ended, -, -, same, -⟩ := each _ swap []
  exact ⟨done, ended, same⟩

/-- Two outputs that are names of one file hold what was written last. And where an input is found by
way of a folder that the run makes, it must be there for the run over this input alone. -/
theorem runTransform_into_linked :
    let tree := "\x7b\"type\":\"root\",\"children\":[]\x7d"
    let other := "\x7b\"type\":\"root\",\"children\":[\x7b\"type\":\"break\"\x7d]\x7d"
    let first : Place := ["out".toList, "a.json".toList]
    let second : Place := ["out".toList, "b.json".toList]
    let w : Workspace := ⟨⟨[(["a.json".toList], .file (some tree)),
      (["b.json".toList], .file (some other)), (["out".toList], .folder),
      (first, .file (some "")), (second, .file (some ""))]⟩, []⟩
    let both := runTransform w {} (fun _ => none)
      { inputs := ["a.json".toList, "b.json".toList], output := some "out".toList }
      { linked := [[first, second]] }
    let alone := runTransform w {} (fun _ => none) { inputs := ["a.json".toList] }
    let bare : FileSystem := ⟨[(["a.md".toList], .file (some "x"))]⟩
    let path := "out/sub/../../a.md".toList
    (both.error = none ∧ alone.error = none ∧
      both.files.readText [] "out/a.json".toList ≠ .ok alone.printed) ∧
    (runTransform ⟨bare, []⟩ {} (fun _ => none)
      { inputs := [path], output := some "out/sub/..".toList }).error = none ∧
    (runTransform ⟨bare.put ["out".toList] .folder, []⟩ {} (fun _ => none)
      { inputs := [path] }).error ≠ none := by
  intro tree other first second w both alone bare path
  have differs : (both.files.readText [] "out/a.json".toList).toOption ≠ some alone.printed := by
    decide +kernel
  refine ⟨⟨?_, ?_, fun same => differs (congrArg Except.toOption same)⟩, ?_, ?_⟩
  all_goals
    first
      | rw [← Option.isNone_iff_eq_none]
      | rw [← Option.isSome_iff_ne_none]
    decide +kernel

end Command

end PageTree
