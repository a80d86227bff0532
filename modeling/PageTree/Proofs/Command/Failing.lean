import PageTree.Proofs.Command.Serial
import PageTree.Proofs.Files.Straight

/-!
Runs that fail. A run that is refused changes nothing. Where one worker after the other is at work, a
run into a folder stops at the first input that fails, and leaves behind what a run over the inputs
before it leaves, and of that input at most the beginning of its output.
-/

namespace PageTree

namespace Command

open FileSystem (Disk)
open Terminal (linesOfModule)

/-- What a run refuses before it does anything. -/
inductive Refused (w : Workspace) (config : Config) (parseYaml : String → Option Json)
    (arguments : TransformArguments) : Prop
  | several (many : 1 < arguments.inputs.length) (printing : arguments.output = none)
  | unsupported {path : Path} (member : path ∈ arguments.inputs) {cause : TreeError}
      (unknown : InputFormat.ofPath path = .error cause)
  | config {cause : ConfigError} (unread : config.pageContext w parseYaml = .error cause)
  | collision {folder : Path} (into : arguments.output = some folder)
      (shared : ¬ (arguments.inputs.map (target folder)).Nodup)

theorem exists_formats {inputs : List Path}
    (known : ∀ path ∈ inputs, ∀ cause, InputFormat.ofPath path ≠ .error cause) :
    ∃ items, formats inputs = .ok items := by
  induction inputs with
  | nil => exact ⟨[], rfl⟩
  | cons path inputs ih =>
    obtain ⟨here, later⟩ := List.forall_mem_cons.mp known
    obtain ⟨items, rest⟩ := ih later
    cases format : InputFormat.ofPath path with
    | error cause => exact absurd format (here cause)
    | ok format => exact ⟨_, formats_cons_eq_ok_iff.mpr ⟨_, _, format, rest, rfl⟩⟩

variable {w : Workspace} {config : Config} {parseYaml : String → Option Json}
  {arguments : TransformArguments} {disk : Disk}

theorem failed_or_exists (w : Workspace) (config : Config) (parseYaml : String → Option Json)
    (arguments : TransformArguments) (disk : Disk) :
    (∃ e, runTransform w config parseYaml arguments disk = .failed w.files e) ∨
      ∃ base items, config.pageContext w parseYaml = .ok base ∧
        formats arguments.inputs = .ok items ∧
        ¬ (1 < arguments.inputs.length && arguments.output.isNone) := by
  rw [runTransform]
  split
  · exact .inl ⟨_, rfl⟩
  · next enough =>
    cases known : formats arguments.inputs with
    | error e => exact .inl ⟨e, rfl⟩
    | ok items =>
      cases context : config.pageContext w parseYaml with
      | error cause => exact .inl ⟨_, rfl⟩
      | ok base => exact .inr ⟨base, items, rfl, rfl, enough⟩

theorem failed_of_refused (refused : Refused w config parseYaml arguments) :
    ∃ e, runTransform w config parseYaml arguments disk = .failed w.files e := by
  rcases failed_or_exists w config parseYaml arguments disk with
    failed | ⟨base, items, context, known, enough⟩
  · exact failed
  · obtain ⟨paths, each⟩ := formats_eq_ok_iff.mp known
    cases refused with
    | several many printing => simp [many, printing] at enough
    | unsupported member unknown =>
      rw [← paths] at member
      obtain ⟨item, inItems, rfl⟩ := List.mem_map.mp member
      cases (each item inItems).symm.trans unknown
    | config unread => cases context.symm.trans unread
    | @collision folder into shared =>
      have batch : runTransform w config parseYaml arguments disk =
          runBatch (batchOf w.cwd config arguments base) disk [] w.files items folder :=
        runTransform_eq_runBatch context into known
      rw [batch, runBatch, paths]
      cases same : collision? folder [] arguments.inputs with
      | some e => exact ⟨e, rfl⟩
      | none => exact absurd (collision?_eq_none_iff.mp same).1 shared

theorem unchanged_of_printing (printing : arguments.output = none)
    (failed : (runTransform w config parseYaml arguments disk).error ≠ none) :
    (runTransform w config parseYaml arguments disk).files = w.files ∧
      (runTransform w config parseYaml arguments disk).printed = "" := by
  rcases failed_or_exists w config parseYaml arguments disk with
    ⟨e, failed⟩ | ⟨base, items, context, known, enough⟩
  · rw [failed]
    exact ⟨rfl, rfl⟩
  · rw [runTransform, if_neg enough, known, context, printing] at failed ⊢
    cases items with
    | nil => exact absurd rfl failed
    | cons item items =>
      simp only [printOne] at failed ⊢
      split
      · exact ⟨rfl, rfl⟩
      · next done process =>
        rw [process] at failed
        exact absurd rfl failed

theorem exists_of_not_refused (allowed : ¬ Refused w config parseYaml arguments) {folder : Path}
    (into : arguments.output = some folder) :
    ∃ base items, config.pageContext w parseYaml = .ok base ∧
      formats arguments.inputs = .ok items ∧ (arguments.inputs.map (target folder)).Nodup := by
  have known : ∀ path ∈ arguments.inputs, ∀ cause, InputFormat.ofPath path ≠ .error cause :=
    fun path member cause unknown => allowed (.unsupported member unknown)
  obtain ⟨items, formats⟩ := exists_formats known
  cases context : config.pageContext w parseYaml with
  | error cause => exact absurd (.config context) allowed
  | ok base =>
    exact ⟨base, items, rfl, formats, by_contra fun shared => allowed (.collision into shared)⟩

/-- The output of an input is as it was when the folder had been made. -/
def Kept (w : Workspace) (folder : Path) (start files : FileSystem) (path : Path) : Prop :=
  ∀ place, start.locate w.cwd (outputPath folder path) = .ok place →
    files.find? place = start.find? place

variable (w config parseYaml arguments disk) in
/-- Why an input fails, and what it leaves behind: it cannot be read, is no tree, or its output cannot
be opened, and no file has changed; or the output could not be written to its end. -/
inductive FailsWith (folder : Path) (start reached files : FileSystem) (path : Path) : RunError → Prop
  | unreadable (cause : FileError) (same : files = reached) (kept : Kept w folder start files path) :
    FailsWith folder start reached files path (.unreadable path cause)
  | invalid (cause : TreeError) (same : files = reached) (kept : Kept w folder start files path) :
    FailsWith folder start reached files path (.invalidInput path cause)
  | notCreated (cause : FileError) (same : files = reached) (kept : Kept w folder start files path) :
    FailsWith folder start reached files path (.notCreated (outputPath folder path) cause)
  | unwritten (cause : FileError) {place : Place} {count : Nat} {text : String}
    (alone : (runTransform ⟨start, w.cwd⟩ config parseYaml (single arguments path)).error = none)
    (printed : (runTransform ⟨start, w.cwd⟩ config parseYaml (single arguments path)).printed = text)
    (opened : start.locate w.cwd (outputPath folder path) = .ok place)
    (broken : disk.breaksOff? place text = some (count, cause))
    (begun : files.find? place =
      some (.file ((FileSystem.firstBytes count text.toList).map String.ofList)))
    (others : ∀ other, other ≠ place → files.find? other = reached.find? other) :
    FailsWith folder start reached files path (.unwritten cause)

variable (w config parseYaml arguments disk) in
/-- A run stops at an input. The inputs before it have been written, those after it have not. -/
structure Stopped (folder : Path) (start : FileSystem) (before : List Path) (path : Path)
    (after : List Path) : Prop where
  inputs : arguments.inputs = before ++ path :: after
  succeeds : (runTransform w config parseYaml { arguments with inputs := before } disk).error = none
  fails : (runTransform w config parseYaml
    { arguments with inputs := before ++ [path] } disk).error = some .transformFailed
  error : (runTransform w config parseYaml arguments disk).error = some .transformFailed
  printed : (runTransform w config parseYaml arguments disk).printed = ""
  files : (runTransform w config parseYaml arguments disk).files =
    (runTransform w config parseYaml { arguments with inputs := before ++ [path] } disk).files
  outputs : ∀ earlier ∈ before,
    let alone := runTransform ⟨start, w.cwd⟩ config parseYaml (single arguments earlier)
    alone.error = none ∧ (runTransform w config parseYaml arguments disk).files.readText w.cwd
      (outputPath folder earlier) = .ok alone.printed
  others : ∀ place,
    (∀ earlier ∈ before ++ [path], start.locate w.cwd (outputPath folder earlier) ≠ .ok place) →
      (runTransform w config parseYaml arguments disk).files.find? place = start.find? place
  left : ∀ later ∈ after,
    Kept w folder start (runTransform w config parseYaml arguments disk).files later
  lines : ∃ e,
    FailsWith w config parseYaml arguments disk folder start
      (runTransform w config parseYaml { arguments with inputs := before } disk).files
      (runTransform w config parseYaml arguments disk).files path e ∧
    linesOfModule "error" (runTransform w config parseYaml arguments disk).log =
      [failureLine path e] ∧
    linesOfModule "done" (runTransform w config parseYaml arguments disk).log = []

section Batches

variable {base : PageContext} {folder : Path} {start : FileSystem}
  {items : List (Path × InputFormat)}

theorem runBatch_eq {b : Batch} {files : FileSystem}
    (free : collision? folder [] (items.map Prod.fst) = none)
    (made : files.makeFolderAll b.cwd folder = .ok start) :
    let run := items.foldl (b.finish disk folder) { files := start }
    let outcome := runBatch b disk [] files items folder
    (outcome.error = if run.failed then some .transformFailed else none) ∧
      outcome.files = run.files ∧ outcome.printed = "" ∧
      (run.failed = true → outcome.log = .progress (progressItems items) :: run.log ++ [.drop]) := by
  intro run outcome
  let steps := .progress (progressItems items) :: run.log
  let last := doneLine items.length run.totals
  have same : outcome =
      if run.failed then { files := run.files, log := steps ++ [.drop], error := some .transformFailed }
      else { files := run.files, log := steps ++ [.finish, last] } := by
    simp only [outcome, steps, last, run, runBatch, free, made, Batch.workAll_nil]
  rw [same]
  split
  · exact ⟨rfl, rfl, rfl, fun _ => rfl⟩
  · next going => exact ⟨rfl, rfl, rfl, fun failed => absurd failed going⟩

theorem linesOfModule_run (name : String) (counts : List (String × Nat)) (log : List Terminal.Step) :
    linesOfModule name (.progress counts :: log ++ [.drop]) = linesOfModule name log := by
  rw [Terminal.linesOfModule_append]
  exact List.append_nil _

/-- A run into a folder that has been made goes through its inputs. -/
theorem runTransform_eq_foldl (disk : Disk) (context : config.pageContext w parseYaml = .ok base)
    (into : arguments.output = some folder) (made : w.files.makeFolderAll w.cwd folder = .ok start)
    (known : ∀ item ∈ items, InputFormat.ofPath item.1 = .ok item.2)
    (apart : (items.map fun item => target folder item.1).Nodup) :
    let run := items.foldl ((batchOf w.cwd config arguments base).finish disk folder) { files := start }
    let outcome := runTransform w config parseYaml
      { arguments with inputs := items.map Prod.fst } disk
    (outcome.error = if run.failed then some .transformFailed else none) ∧
      outcome.files = run.files ∧ outcome.printed = "" ∧
      (run.failed = true → outcome.log = .progress (progressItems items) :: run.log ++ [.drop]) := by
  have free : collision? folder [] (items.map Prod.fst) = none := by
    refine collision?_eq_none_iff.mpr ⟨?_, by simp⟩
    rwa [List.map_map]
  rw [runTransform_eq_runBatch context into (formats_eq_ok_iff.mpr ⟨rfl, known⟩)]
  exact runBatch_eq free made

theorem failsWith_of_halts (context : config.pageContext ⟨start, w.cwd⟩ parseYaml = .ok base)
    {place : Place} {before after : List (Path × InputFormat)} {stop : Path × InputFormat}
    {reached files : FileSystem} {e : RunError}
    (halts : (batchOf w.cwd config arguments base).Halts disk folder place start before stop after
      reached files e) :
    FailsWith w config parseYaml arguments disk folder start reached files stop.1 e := by
  have kept : Kept w folder start reached stop.1 := by
    intro target there
    obtain ⟨-, inside, within, -, rfl⟩ :=
      (FileSystem.locate_outputPath (isOutput_of_ofPath halts.knownStop)).mp there
    rw [halts.leads inside within]
    exact halts.othersChanged.find?_output
  have breaks := halts.breaks
  cases breaks with
  | unreadable cause => exact .unreadable cause rfl kept
  | invalid cause => exact .invalid cause rfl kept
  | notCreated cause => exact .notCreated cause rfl kept
  | @unwritten inside done count cause opens broken =>
    obtain ⟨-, atStart⟩ := halts.opens opens
    have proper := FileSystem.ne_nil_of_find? opens.free
    have run : runTransform ⟨start, w.cwd⟩ config parseYaml (single arguments stop.1) =
        { files := start, printed := done.text ++ "\n", log := done.log } :=
      runTransform_of_process context arguments halts.knownStop atStart.process
    have alone : (runTransform ⟨start, w.cwd⟩ config parseYaml (single arguments stop.1)).error =
        none := by rw [run]
    have printed : (runTransform ⟨start, w.cwd⟩ config parseYaml (single arguments stop.1)).printed =
        done.text ++ "\n" := by rw [run]
    have located := atStart.locate halts.knownStop
    obtain rfl : inside = place := (halts.opens opens).1
    refine .unwritten cause alone printed located broken ?_ fun other apart => ?_
    · exact (FileSystem.find?_put proper _ _).trans (if_pos rfl)
    · exact (FileSystem.find?_put proper _ _).trans (if_neg apart)

theorem outputs_of_halts (context : config.pageContext ⟨start, w.cwd⟩ parseYaml = .ok base)
    {place : Place} {before after : List (Path × InputFormat)} {stop : Path × InputFormat}
    {reached files : FileSystem} {e : RunError}
    (halts : (batchOf w.cwd config arguments base).Halts disk folder place start before stop after
      reached files e) {item : Path × InputFormat} (member : item ∈ before) :
    let alone := runTransform ⟨start, w.cwd⟩ config parseYaml (single arguments item.1)
    alone.error = none ∧ files.readText w.cwd (outputPath folder item.1) = .ok alone.printed := by
  intro alone
  obtain ⟨done, ran⟩ := halts.ran item member
  have run : alone = { files := start, printed := done.text ++ "\n", log := done.log } :=
    runTransform_of_process context arguments (halts.knownBefore item member) ran.process
  rw [run]
  exact ⟨rfl, halts.readText member ran.process⟩

theorem exists_stopped (unlinked : disk.linked = [])
    (allowed : ¬ Refused w config parseYaml arguments) (into : arguments.output = some folder)
    (made : w.files.makeFolderAll w.cwd folder = .ok start)
    (failed : (runTransform w config parseYaml arguments disk).error ≠ none) :
    ∃ before path after, Stopped w config parseYaml arguments disk folder start before path after := by
  obtain ⟨base, items, context, known, distinct⟩ := exists_of_not_refused allowed into
  obtain ⟨paths, each⟩ := formats_eq_ok_iff.mp known
  have names := nodup_outputName distinct
  rw [← paths, List.map_map] at distinct names
  have contextStart : config.pageContext ⟨start, w.cwd⟩ parseYaml = .ok base :=
    Config.pageContext_of_same
      (fun _ _ _ read => (FileSystem.grows_makeFolderAll made).readText read) context
  -- Some of the inputs, in the same order, make a batch of their own.
  have batch : ∀ {some : List (Path × InputFormat)}, some.Sublist items → _ := fun sublist =>
    runTransform_eq_foldl disk context into made
      (fun item member => each item (sublist.subset member)) (distinct.sublist (sublist.map _))
  have whole := batch (List.Sublist.refl items)
  rw [paths] at whole
  obtain ⟨error, files, printed, log⟩ := whole
  have stops : (items.foldl ((batchOf w.cwd config arguments base).finish disk folder)
      { files := start }).failed = true := by
    by_contra going
    exact failed (error.trans (if_neg going))
  obtain ⟨place, leads⟩ := Batch.exists_leads start w.cwd folder
  obtain ⟨before, stop, after, e, rfl, reached, same, halts, lines⟩ :=
    Batch.exists_halts unlinked each names leads stops
  have sublist : before.Sublist (before ++ stop :: after) := List.sublist_append_left _ _
  have upTo : (before ++ [stop]).Sublist (before ++ stop :: after) :=
    (List.Sublist.refl before).append ((List.nil_sublist after).cons_cons stop)
  obtain ⟨errorBefore, filesBefore, -, -⟩ := batch sublist
  obtain ⟨errorUpTo, filesUpTo, -, -⟩ := batch upTo
  rw [List.map_append, same] at errorUpTo filesUpTo
  rw [← files, ← filesBefore] at halts
  refine ⟨before.map Prod.fst, stop.1, after.map Prod.fst, ?_⟩
  constructor
  case inputs =>
    rw [← paths]
    exact List.map_append
  case succeeds => exact errorBefore.trans (if_neg (Bool.eq_false_iff.mp reached))
  case fails => exact errorUpTo.trans (if_pos stops)
  case error => exact error.trans (if_pos stops)
  case printed => exact printed
  case files => exact files.trans filesUpTo.symm
  case outputs =>
    exact List.forall_mem_map.mpr fun item member => outputs_of_halts contextStart halts member
  case others =>
    intro here outside
    obtain ⟨outsideBefore, outsideStop⟩ := List.forall_mem_append.mp outside
    exact halts.find?_of_outside
      (fun item member => outsideBefore item.1 (List.mem_map_of_mem member))
      (outsideStop _ List.mem_cons_self)
  case left =>
    exact List.forall_mem_map.mpr fun later member here there => halts.find?_later member there
  case lines =>
    have steps := log stops
    refine ⟨e, failsWith_of_halts contextStart halts, ?_, ?_⟩
    · rw [steps, linesOfModule_run, lines]
    · rw [steps, linesOfModule_run, Batch.lines_foldl unlinked each]
      rfl

end Batches

/-- The folder has been made, and nothing else has changed. Where its path has no way up, what has been
made is on the way to the folder, and no output was touched. -/
structure Opened (w : Workspace) (arguments : TransformArguments) (folder : Path)
    (start : FileSystem) : Prop where
  grows : w.files.Grows start
  onTheWay : FileSystem.Straight folder → ∀ place, start.locateFolder w.cwd folder = .ok place →
    ∀ other, start.find? other = w.files.find? other ∨ other <+: place
  outputs : FileSystem.Straight folder → ∀ input ∈ arguments.inputs, ∀ place,
    start.locate w.cwd (outputPath folder input) = .ok place →
      start.find? place = w.files.find? place

theorem opened (allowed : ¬ Refused w config parseYaml arguments) {folder : Path}
    {start : FileSystem} (made : w.files.makeFolderAll w.cwd folder = .ok start) :
    Opened w arguments folder start := by
  have onTheWay : FileSystem.Straight folder → ∀ place,
      start.locateFolder w.cwd folder = .ok place →
        ∀ other, start.find? other = w.files.find? other ∨ other <+: place := by
    intro straight place leads other
    rw [FileSystem.locateFolder_straight straight leads, ← FileSystem.foldersMade_of_ok made]
    exact FileSystem.find?_foldersMade straight other
  refine ⟨FileSystem.grows_makeFolderAll made, onTheWay, ?_⟩
  intro straight input member place leads
  cases format : InputFormat.ofPath input with
  | error cause => exact absurd (.unsupported member format) allowed
  | ok format =>
    obtain ⟨-, inside, within, -, rfl⟩ :=
      (FileSystem.locate_outputPath (isOutput_of_ofPath format)).mp leads
    rcases onTheWay straight inside within (inside ++ [outputName input]) with same | before
    · exact same
    · have short := before.length_le
      rw [List.length_append, List.length_singleton] at short
      omega

/-- A run that fails leaves nothing half done: it changes nothing at all, or it has written the outputs
of the inputs before the first one that fails. -/
theorem runTransform_failing {w : Workspace} {config : Config}
    {parseYaml : String → Option Json} {arguments : TransformArguments} {disk : Disk}
    (failed : (runTransform w config parseYaml arguments disk).error ≠ none) :
    (Refused w config parseYaml arguments ∨ arguments.output = none →
      (runTransform w config parseYaml arguments disk).files = w.files ∧
        (runTransform w config parseYaml arguments disk).printed = "") ∧
    ∀ folder start, disk.linked = [] → ¬ Refused w config parseYaml arguments →
      arguments.output = some folder → w.files.makeFolderAll w.cwd folder = .ok start →
        Opened w arguments folder start ∧ ∃ before path after,
          Stopped w config parseYaml arguments disk folder start before path after := by
  constructor
  · rintro (refused | printing)
    · obtain ⟨e, same⟩ := failed_of_refused refused
      rw [same]
      exact ⟨rfl, rfl⟩
    · exact unchanged_of_printing printing failed
  · intro folder start unlinked allowed into made
    exact ⟨opened allowed made, exists_stopped unlinked allowed into made failed⟩

/-- The second of three inputs fails. -/
theorem runTransform_failing_second :
    let tree := "\x7b\"type\":\"root\",\"children\":[]\x7d"
    let w : Workspace := ⟨⟨[(["a.json".toList], .file (some tree)), (["b.json".toList], .file (some "")),
      (["c.json".toList], .file (some tree))]⟩, []⟩
    let arguments : TransformArguments :=
      { inputs := ["a.json".toList, "b.json".toList, "c.json".toList], output := some "out".toList }
    let start : FileSystem := w.files.put ["out".toList] .folder
    (runTransform w {} (fun _ => none) arguments).error ≠ none ∧
      ¬ Refused w {} (fun _ => none) arguments ∧
      w.files.makeFolderAll w.cwd "out".toList = .ok start ∧
      Opened w arguments "out".toList start ∧ ∃ before path after,
        Stopped w {} (fun _ => none) arguments {} "out".toList start before path after := by
  intro tree w arguments start
  have failed : (runTransform w {} (fun _ => none) arguments).error ≠ none := by
    rw [← Option.isSome_iff_ne_none]
    decide +kernel
  have allowed : ¬ Refused w {} (fun _ => none) arguments := by
    rintro (⟨-, none⟩ | ⟨member, unknown⟩ | unread | ⟨into, shared⟩)
    · cases none
    · simp only [arguments, List.mem_cons, List.not_mem_nil, or_false] at member
      rcases member with rfl | rfl | rfl <;> cases unknown
    · cases unread
    · obtain rfl := Option.some.inj into
      exact shared (by decide +kernel)
  have made : w.files.makeFolderAll w.cwd "out".toList = .ok start := rfl
  exact ⟨failed, allowed, made, (runTransform_failing failed).2 _ start rfl allowed rfl made⟩

/-- What changes the output of an input that fails: a folder that is made on the way to the output folder,
a write that breaks off, or another output that is a name of the same file. -/
theorem output_changed_by_failing :
    let tree := "\x7b\"type\":\"root\",\"children\":[]\x7d"
    let run (files : FileSystem) (inputs : List Path) (folder : Path) (disk : Disk) :=
      runTransform ⟨files, []⟩ {} (fun _ => none) { inputs, output := some folder } disk
    let bare : FileSystem := ⟨[(["a.md".toList], .file (some "x"))]⟩
    let onTheWay := run bare ["a.md".toList] "out/a.json/..".toList {}
    let first : Place := ["out".toList, "a.json".toList]
    let second : Place := ["out".toList, "b.json".toList]
    let files : FileSystem := ⟨[(["a.json".toList], .file (some tree)),
      (["b.json".toList], .file (some "")), (["out".toList], .folder),
      (first, .file (some "old")), (second, .file (some "old"))]⟩
    let full := run files ["a.json".toList] "out".toList { breaksOff? := fun _ _ => some (0, .noSpace) }
    let shared := run files ["a.json".toList, "b.json".toList] "out".toList
      { linked := [[first, second]] }
    (onTheWay.error ≠ none ∧ (bare.makeFolderAll [] "out/a.json/..".toList).isOk ∧
      bare.lookup [] "out/a.json/../a.json".toList = .error .notFound ∧
      onTheWay.files.lookup [] "out/a.json/../a.json".toList = .ok .folder) ∧
    (full.error ≠ none ∧ files.find? first = some (.file (some "old")) ∧
      full.files.find? first = some (.file (some ""))) ∧
    shared.error ≠ none ∧ files.find? second = some (.file (some "old")) ∧
      shared.files.find? second = some (.file (some (tree ++ "\n"))) := by
  intro tree run bare onTheWay first second files full shared
  refine ⟨⟨?_, by decide +kernel, rfl, by decide +kernel⟩, ⟨?_, by decide +kernel, by decide +kernel⟩,
    ?_, by decide +kernel, by decide +kernel⟩
  all_goals
    rw [← Option.isSome_iff_ne_none]
    decide +kernel

end Command

end PageTree
