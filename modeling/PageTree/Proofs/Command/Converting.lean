import PageTree.Command.Program
import PageTree.Command.Transform
import PageTree.Proofs.Markdown.Quotes
import PageTree.Proofs.Markdown.StoredTree
import PageTree.Proofs.Site.Pages

/-!
Converting a file and then transforming the tree gives what transforming the file gives. The two files
lie beside each other and differ in their extensions, so their pages have one identifier, and the
path of a page is no part of what a pass does.
-/

namespace PageTree

theorem Transformer.runPasses_selfPath (context : PageContext) (selfPath : Option String)
    (passes : List Pass) (tree : Node) :
    runPasses { context with selfPath } passes tree = runPasses context passes tree := by
  induction passes generalizing tree with
  | nil => rfl
  | cons pass passes ih =>
    have same : pass.apply { context with selfPath } tree = pass.apply context tree := by
      cases pass <;> rfl
    simp only [runPasses, same, ih]

namespace Command

open PageTree.Path (Component)

namespace Batch

theorem run_eq {b : Batch} {path other : Path} (page : b.pageId path = b.pageId other)
    (tree : Node) : (b.transformer path).run tree = (b.transformer other).run tree := by
  let context : PageContext := { b.base with id := some (b.pageId other) }
  have strip : ∀ path : Path, b.pageId path = b.pageId other → (b.transformer path).run tree =
      Transformer.runPasses context b.passes.enabled tree := by
    intro path same
    rw [Transformer.run, transformer, same]
    exact Transformer.runPasses_selfPath context _ _ tree
  rw [strip path page, strip other rfl]

theorem text_processTree {b : Batch} {path other : Path} (page : b.pageId path = b.pageId other)
    (tree : Node) : (b.processTree path tree).text = (b.processTree other tree).text := by
  rw [processTree, processTree, run_eq page]

end Batch

theorem formats_cons_eq_ok_iff {path : Path} {inputs : List Path}
    {items : List (Path × InputFormat)} : formats (path :: inputs) = .ok items ↔
      ∃ format rest, InputFormat.ofPath path = .ok format ∧ formats inputs = .ok rest ∧
        items = (path, format) :: rest := by
  rw [formats, List.mapM_cons]
  cases known : InputFormat.ofPath path with
  | error cause => simp [Except.map, Except.mapError, bind, Except.bind]
  | ok format =>
    change Except.bind (formats inputs) _ = _ ↔ _
    cases formats inputs with
    | error e => simp [Except.bind]
    | ok rest => simp [Except.bind, pure, Except.pure, eq_comm]

theorem formats_eq_ok_iff {inputs : List Path} {items : List (Path × InputFormat)} :
    formats inputs = .ok items ↔ items.map Prod.fst = inputs ∧
      ∀ item ∈ items, InputFormat.ofPath item.1 = .ok item.2 := by
  induction inputs generalizing items with
  | nil =>
    constructor
    · intro none
      obtain rfl := Except.ok.inj none
      simp
    · rintro ⟨none, -⟩
      rw [List.map_eq_nil_iff.mp none]
      rfl
  | cons path inputs ih =>
    rw [formats_cons_eq_ok_iff]
    constructor
    · rintro ⟨format, rest, known, later, rfl⟩
      obtain ⟨same, each⟩ := ih.mp later
      exact ⟨congrArg (path :: ·) same, List.forall_mem_cons.mpr ⟨known, each⟩⟩
    · rintro ⟨same, each⟩
      cases items with
      | nil => cases same
      | cons item rest =>
        obtain ⟨rfl, later⟩ := List.cons.inj same
        obtain ⟨known, knownLater⟩ := List.forall_mem_cons.mp each
        exact ⟨item.2, rest, known, ih.mpr ⟨later, knownLater⟩, rfl⟩

/-- The arguments for a run that prints what comes of one input. -/
def single (arguments : TransformArguments) (path : Path) : TransformArguments :=
  { arguments with inputs := [path], output := none }

theorem formats_singleton {path : Path} {format : InputFormat}
    (known : InputFormat.ofPath path = .ok format) : formats [path] = .ok [(path, format)] :=
  formats_eq_ok_iff.mpr ⟨rfl, List.forall_mem_singleton.mpr known⟩

/-- What all inputs of a run have in common, when the files that the configuration names are found. -/
def batchOf (cwd : Place) (config : Config) (arguments : TransformArguments) (base : PageContext) :
    Batch :=
  ⟨cwd, arguments, config, base, resolvePasses arguments config.passes⟩

theorem runTransform_single {w : Workspace} {config : Config} {parseYaml : String → Option Json}
    {base : PageContext} (context : config.pageContext w parseYaml = .ok base)
    (arguments : TransformArguments) {path : Path} {format : InputFormat}
    (known : InputFormat.ofPath path = .ok format) :
    runTransform w config parseYaml (single arguments path) =
      printOne (batchOf w.cwd config arguments base) w.files path format := by
  have one : ¬ (1 < [path].length && (none : Option Path).isNone) := by simp
  rw [runTransform, single, if_neg one, formats_singleton known, context]
  rfl

theorem runTransform_of_config {w : Workspace} {config : Config} {parseYaml : String → Option Json}
    {cause : ConfigError} (context : config.pageContext w parseYaml = .error cause)
    (arguments : TransformArguments) {path : Path} {format : InputFormat}
    (known : InputFormat.ofPath path = .ok format) :
    runTransform w config parseYaml (single arguments path) = .failed w.files (.config cause) := by
  have one : ¬ (1 < [path].length && (none : Option Path).isNone) := by simp
  rw [runTransform, single, if_neg one, formats_singleton known, context]

theorem runTransform_of_readInput {w : Workspace} {config : Config}
    {parseYaml : String → Option Json} {base : PageContext}
    (context : config.pageContext w parseYaml = .ok base) (arguments : TransformArguments)
    {path : Path} {format : InputFormat} (known : InputFormat.ofPath path = .ok format) {tree : Node}
    (read : readInput w path format = .ok tree) :
    runTransform w config parseYaml (single arguments path) =
      let done := (batchOf w.cwd config arguments base).processTree path tree
      { files := w.files, printed := done.text ++ "\n", log := done.log } := by
  have input : readInput ⟨w.files, (batchOf w.cwd config arguments base).cwd⟩ path format =
      .ok tree := read
  rw [runTransform_single context arguments known, printOne, Batch.process, input]
  rfl

theorem runTransform_of_refused {w : Workspace} {config : Config}
    {parseYaml : String → Option Json} {base : PageContext}
    (context : config.pageContext w parseYaml = .ok base) (arguments : TransformArguments)
    {path : Path} {format : InputFormat} (known : InputFormat.ofPath path = .ok format)
    {e : RunError} (refused : readInput w path format = .error e) :
    runTransform w config parseYaml (single arguments path) = .failed w.files e := by
  have input : readInput ⟨w.files, (batchOf w.cwd config arguments base).cwd⟩ path format =
      .error e := refused
  rw [runTransform_single context arguments known, printOne, Batch.process, input]
  rfl

theorem readInput_of_readText {w : Workspace} {path : Path} {format : InputFormat} {text : String}
    (read : w.readText path = .ok text) :
    readInput w path format = (format.readTree text).mapError (.invalidInput path) := by
  rw [readInput, read]

def markdownFile (stem : Path) : Path := stem ++ ".md".toList

def jsonFile (stem : Path) : Path := stem ++ ".json".toList

/-- The tree that is read from the converted file is the one that was converted. -/
theorem readInput_converted {w : Workspace} {path : Path} {text : String}
    (held : Markdown.Held text) {pretty : Bool}
    (read : w.readText path = .ok ((Markdown.readTree .all text).encode pretty ++ "\n")) :
    readInput w path .json =
      if Json.nesting ((Markdown.readTree .all text).encode pretty) ≤ 127 then
        .ok (Markdown.readTree .all text)
      else .error (.invalidInput path .invalidJson) := by
  have storable := Markdown.storable_readTree .all held
  rw [readInput_of_readText read, InputFormat.readTree, storable.decode_line,
    storable.decode_eq rfl, storable.nesting_encode, Json.depthLimit]
  split <;> rfl

variable {stem : Path} (named : ¬ Leading stem)

include named

theorem exists_files : ∃ start name, Leading start ∧ name ≠ [] ∧
    IsName (name ++ '.' :: "md".toList) ∧ IsName (name ++ '.' :: "json".toList) ∧
    markdownFile stem = start ++ (name ++ '.' :: "md".toList) ∧
    jsonFile stem = start ++ (name ++ '.' :: "json".toList) := by
  obtain ⟨start, name, leading, inner, rfl⟩ := Path.exists_leading stem
  have some : name ≠ [] := by
    rintro rfl
    exact named (by rwa [List.append_nil])
  refine ⟨start, name, leading, some, isName_append some inner (by decide) (by decide),
    isName_append some inner (by decide) (by decide), ?_, ?_⟩
  · rw [markdownFile, List.append_assoc]
    rfl
  · rw [jsonFile, List.append_assoc]
    rfl

theorem ofPath_markdownFile : InputFormat.ofPath (markdownFile stem) = .ok .markdown := by
  obtain ⟨start, name, leading, some, isName, -, same, -⟩ := exists_files named
  rw [same, InputFormat.ofPath, Path.extension?_name leading isName some (by decide)]
  rfl

theorem ofPath_jsonFile : InputFormat.ofPath (jsonFile stem) = .ok .json := by
  obtain ⟨start, name, leading, some, -, isName, -, same⟩ := exists_files named
  rw [same, InputFormat.ofPath, Path.extension?_name leading isName some (by decide)]
  rfl

theorem locate_jsonFile {files : FileSystem} {cwd place : Place}
    (leads : files.locate cwd (markdownFile stem) = .ok place) :
    ∃ target, files.locate cwd (jsonFile stem) = .ok target ∧ target ≠ place ∧
      FileSystem.namesFolder (jsonFile stem) = false := by
  obtain ⟨start, name, leading, -, isMarkdown, isJson, source, target⟩ := exists_files named
  rw [source, FileSystem.locate_name leading isMarkdown] at leads
  obtain ⟨plain, folder, leads, known, rfl⟩ := leads
  have plain' : Char.ofNat 0 ∉ start ++ (name ++ '.' :: "json".toList) := by
    simp only [List.mem_append, List.mem_cons, not_or] at plain ⊢
    exact ⟨plain.1, plain.2.1, plain.2.2.1, by decide⟩
  refine ⟨folder ++ [name ++ '.' :: "json".toList], ?_, ?_, ?_⟩
  · rw [target, FileSystem.locate_name leading isJson]
    exact ⟨plain', folder, leads, known, rfl⟩
  · intro same
    simp at same
  · rw [target]
    exact FileSystem.namesFolder_name start isJson.inner isJson.some

/-- Both files are sources of one page, unless one of them is the content folder itself. -/
theorem pageId_jsonFile {b : Batch}
    (apart : (b.arguments.id.or b.config.page.id).isSome ∨
      b.contentComponents ≠ b.absolute (markdownFile stem) ∧
        b.contentComponents ≠ b.absolute (jsonFile stem)) :
    b.pageId (jsonFile stem) = b.pageId (markdownFile stem) := by
  unfold Batch.pageId
  cases given : b.arguments.id.or b.config.page.id with
  | some id => rfl
  | none =>
    obtain ⟨start, name, leading, some, isMarkdown, isJson, source, target⟩ := exists_files named
    obtain ⟨front, ends⟩ := Path.exists_absolute_name (.root :: b.cwd.map .name) leading
    simp only [given, Option.isSome_none, Bool.false_eq_true, false_or] at apart
    rw [Batch.absolute, Batch.absolute, source, target, ends isMarkdown, ends isJson] at apart
    simp only [Batch.below, Batch.absolute, source, target, ends isMarkdown, ends isJson]
    exact congrArg String.ofList
      (PageId.ofBelow_name some (by decide) (by decide) apart.2 apart.1)

/-- What converting a file leaves behind. -/
theorem runConvert_markdownFile {w : Workspace} {text : String}
    (read : w.readText (markdownFile stem) = .ok text)
    (free : w.files.isFolder w.cwd (jsonFile stem) = false) (pretty : Bool) :
    let converted := runConvert w ⟨markdownFile stem, some (jsonFile stem), pretty⟩
    let later : Workspace := ⟨converted.files, w.cwd⟩
    converted.error = none ∧
      later.readText (jsonFile stem) = .ok ((Markdown.readTree .all text).encode pretty ++ "\n") ∧
      ∀ path text, w.files.locate w.cwd path ≠ w.files.locate w.cwd (jsonFile stem) →
        w.readText path = .ok text → later.readText path = .ok text := by
  obtain ⟨place, leads, -, -⟩ := FileSystem.exists_of_readText read
  obtain ⟨target, found, apart, file⟩ := locate_jsonFile named leads
  have vacant : w.files.find? target ≠ some .folder := by
    intro folder
    simp [FileSystem.isFolder, FileSystem.lookup, found, folder, bind, Except.bind] at free
  let line := (Markdown.readTree .all text).encode pretty ++ "\n"
  have created : w.files.create {} w.cwd (jsonFile stem) =
      .ok (target, w.files.put target (.file (some ""))) :=
    (FileSystem.create_eq_ok_iff rfl).mpr ⟨found, vacant, file, rfl, rfl⟩
  have written : (w.files.put target (.file (some ""))).write {} target line =
      (w.files.put target (.file (some line)), none) := by
    rw [FileSystem.write_whole rfl rfl, FileSystem.put_put]
  have keeps := FileSystem.keeps_put vacant (.file (some line))
  have proper := FileSystem.ne_nil_of_find? vacant
  have outcome : runConvert w ⟨markdownFile stem, some (jsonFile stem), pretty⟩ =
      { files := w.files.put target (.file (some line)),
        log := [.log "convert" ("wrote " ++ Path.display (jsonFile stem))] } := by
    simp only [runConvert, ofPath_markdownFile named, readInput_of_readText read,
      InputFormat.readTree, Except.mapError, createOutput, created, writeOutput]
    rw [written]
    rfl
  rw [outcome]
  refine ⟨rfl, ?_, ?_⟩
  · apply FileSystem.readText_of_find? (keeps.locate found) file
    rw [FileSystem.find?_put proper, if_pos rfl]
  · intro path text elsewhere read
    obtain ⟨place, leads, -, -⟩ := FileSystem.exists_of_readText read
    have other : place ≠ target := by
      rintro rfl
      exact elsewhere (leads.trans found.symm)
    have same := keeps.readText leads (by rw [FileSystem.find?_put proper, if_neg other])
    exact same.trans read

theorem locate_ne {w : Workspace} {text : String} (read : w.readText (markdownFile stem) = .ok text) :
    w.files.locate w.cwd (markdownFile stem) ≠ w.files.locate w.cwd (jsonFile stem) := by
  obtain ⟨place, leads, -, -⟩ := FileSystem.exists_of_readText read
  obtain ⟨target, found, apart, -⟩ := locate_jsonFile named leads
  intro same
  rw [leads, found] at same
  exact apart (Except.ok.inj same).symm

/-- Converting a file and transforming the tree prints what transforming the file prints, if the text
of the tree nests no deeper than trees are read. -/
theorem runTransform_jsonFile {w : Workspace} {text : String}
    (read : w.readText (markdownFile stem) = .ok text) (held : Markdown.Held text)
    (free : w.files.isFolder w.cwd (jsonFile stem) = false) (pretty : Bool) (config : Config)
    (parseYaml : String → Option Json) (arguments : TransformArguments)
    (apart : (arguments.id.or config.page.id).isSome ∨
      ∀ path ∈ [markdownFile stem, jsonFile stem], config.contentFolder.components ≠
        Path.absolute (.root :: w.cwd.map .name) path) :
    let tree := Markdown.readTree .all text
    let converted := runConvert w ⟨markdownFile stem, some (jsonFile stem), pretty⟩
    let later : Workspace := ⟨converted.files, w.cwd⟩
    let direct := runTransform later config parseYaml (single arguments (markdownFile stem))
    let staged := runTransform later config parseYaml (single arguments (jsonFile stem))
    converted.error = none ∧
      readInput later (jsonFile stem) .json =
        (if Json.nesting (tree.encode pretty) ≤ 127 then .ok tree
        else .error (.invalidInput (jsonFile stem) .invalidJson)) ∧
      (∀ base, config.pageContext later parseYaml = .ok base → direct.error = none ∧
        if Json.nesting (tree.encode pretty) ≤ 127 then
          staged.error = none ∧ staged.printed = direct.printed
        else staged.error = some (.invalidInput (jsonFile stem) .invalidJson)) ∧
      (∀ cause, config.pageContext later parseYaml = .error cause →
        direct.error = some (.config cause) ∧ staged.error = some (.config cause)) ∧
      ∀ base, config.pageContext w parseYaml = .ok base →
        (∀ path ∈ config.registryPaths,
          w.files.locate w.cwd path ≠ w.files.locate w.cwd (jsonFile stem)) →
        config.pageContext later parseYaml = .ok base ∧
          (runTransform w config parseYaml (single arguments (markdownFile stem))).printed =
            direct.printed := by
  intro tree converted later direct staged
  obtain ⟨done, readTarget, kept⟩ := runConvert_markdownFile named read free pretty
  have readSource : later.readText (markdownFile stem) = .ok text :=
    kept _ _ (locate_ne named read) read
  have again : readInput later (jsonFile stem) .json =
      if Json.nesting (tree.encode pretty) ≤ 127 then .ok tree
      else .error (.invalidInput (jsonFile stem) .invalidJson) :=
    readInput_converted held readTarget
  have source : readInput later (markdownFile stem) .markdown = .ok tree :=
    readInput_of_readText readSource
  refine ⟨done, again, ?_, ?_, ?_⟩
  · intro base context
    let b := batchOf w.cwd config arguments base
    have directRun := runTransform_of_readInput context arguments (ofPath_markdownFile named) source
    refine ⟨congrArg Outcome.error directRun, ?_⟩
    split at again
    · next shallow =>
      have page : b.pageId (jsonFile stem) = b.pageId (markdownFile stem) :=
        pageId_jsonFile named (apart.imp_right fun each => ⟨each _ (by simp), each _ (by simp)⟩)
      have stagedRun := runTransform_of_readInput context arguments (ofPath_jsonFile named) again
      rw [if_pos shallow]
      refine ⟨congrArg Outcome.error stagedRun, ?_⟩
      calc staged.printed = (b.processTree (jsonFile stem) tree).text ++ "\n" :=
            congrArg Outcome.printed stagedRun
        _ = (b.processTree (markdownFile stem) tree).text ++ "\n" := by
            rw [Batch.text_processTree page]
        _ = direct.printed := (congrArg Outcome.printed directRun).symm
    · next deep =>
      have stagedRun := runTransform_of_refused context arguments (ofPath_jsonFile named) again
      rw [if_neg deep]
      exact congrArg Outcome.error stagedRun
  · intro cause context
    have directRun := runTransform_of_config context arguments (ofPath_markdownFile named)
    have stagedRun := runTransform_of_config context arguments (ofPath_jsonFile named)
    exact ⟨congrArg Outcome.error directRun, congrArg Outcome.error stagedRun⟩
  · intro base context elsewhere
    have still : config.pageContext later parseYaml = .ok base :=
      Config.pageContext_of_same (fun path member text => kept path text (elsewhere path member))
        context
    have before : readInput w (markdownFile stem) .markdown = .ok tree := readInput_of_readText read
    have first := runTransform_of_readInput context arguments (ofPath_markdownFile named) before
    have directRun := runTransform_of_readInput still arguments (ofPath_markdownFile named) source
    refine ⟨still, ?_⟩
    exact (congrArg Outcome.printed first).trans (congrArg Outcome.printed directRun).symm

omit named

def quotesOnDisk (n : Nat) : Workspace :=
  ⟨⟨[(["p.md".toList], .file (some (Markdown.quoteMarks n)))]⟩, []⟩

theorem readText_quotesOnDisk (n : Nat) :
    (quotesOnDisk n).readText (markdownFile "p".toList) = .ok (Markdown.quoteMarks n) := rfl

theorem isFolder_quotesOnDisk (n : Nat) :
    (quotesOnDisk n).files.isFolder (quotesOnDisk n).cwd (jsonFile "p".toList) = false := rfl

theorem not_leading_p : ¬ Leading "p".toList := by
  rintro (none | ⟨folder, same⟩)
  · cases none
  · have last := congrArg List.getLast? same
    rw [List.getLast?_concat] at last
    cases last

theorem nesting_quoteMarks {n : Nat} (held : Markdown.Held (Markdown.quoteMarks n))
    (only : Markdown.quotesOnly n
      (Markdown.BlockReader.read ⟨.ofText (Markdown.quoteMarks n), .all⟩).blocks.toList)
    (pretty : Bool) :
    Json.nesting ((Markdown.readTree .all (Markdown.quoteMarks n)).encode pretty) = 2 * n + 3 := by
  rw [(Markdown.storable_readTree .all held).nesting_encode]
  exact Markdown.depth_readTree_of_quotesOnly only

/-- The deepest quotes that are read. -/
theorem runTransform_jsonFile_quotes :
    let w := quotesOnDisk 62
    let tree := Markdown.readTree .all (Markdown.quoteMarks 62)
    let converted := runConvert w ⟨"p.md".toList, some "p.json".toList, false⟩
    let later : Workspace := ⟨converted.files, []⟩
    let direct := runTransform later {} (fun _ => none) { inputs := ["p.md".toList] }
    let staged := runTransform later {} (fun _ => none) { inputs := ["p.json".toList] }
    converted.error = none ∧ readInput later "p.json".toList .json = .ok tree ∧
      direct.error = none ∧ staged.error = none ∧ staged.printed = direct.printed := by
  intro w tree converted later direct staged
  have held : Markdown.Held (Markdown.quoteMarks 62) := by
    change (Markdown.quoteMarks 62).utf8ByteSize < Json.i64Bound
    decide +kernel
  have only : Markdown.quotesOnly 62
      (Markdown.BlockReader.read ⟨.ofText (Markdown.quoteMarks 62), .all⟩).blocks.toList := by
    decide +kernel
  have shallow : Json.nesting (tree.encode false) ≤ 127 := by
    rw [nesting_quoteMarks held only]
  have apart : ∀ path ∈ [markdownFile "p".toList, jsonFile "p".toList],
      ({} : Config).contentFolder.components ≠ Path.absolute [.root] path := by
    decide +kernel
  have run := runTransform_jsonFile not_leading_p (readText_quotesOnDisk 62) held
    (isFolder_quotesOnDisk 62) false {} (fun _ => none) { inputs := [] } (.inr apart)
  obtain ⟨done, again, both, -⟩ := run
  rw [if_pos shallow] at again
  obtain ⟨first, second⟩ := both _ rfl
  rw [if_pos shallow] at second
  exact ⟨done, again, first, second⟩

/-- One quote more, and the tree is not read back. -/
theorem runTransform_jsonFile_unread :
    let w := quotesOnDisk 63
    let converted := runConvert w ⟨"p.md".toList, some "p.json".toList, false⟩
    let later : Workspace := ⟨converted.files, []⟩
    let direct := runTransform later {} (fun _ => none) { inputs := ["p.md".toList] }
    let staged := runTransform later {} (fun _ => none) { inputs := ["p.json".toList] }
    converted.error = none ∧ direct.error = none ∧
      readInput later "p.json".toList .json = .error (.invalidInput "p.json".toList .invalidJson) ∧
      staged.error = some (.invalidInput "p.json".toList .invalidJson) ∧ staged.printed = "" := by
  intro w converted later direct staged
  have held : Markdown.Held (Markdown.quoteMarks 63) := by
    change (Markdown.quoteMarks 63).utf8ByteSize < Json.i64Bound
    decide +kernel
  have only : Markdown.quotesOnly 63
      (Markdown.BlockReader.read ⟨.ofText (Markdown.quoteMarks 63), .all⟩).blocks.toList := by
    decide +kernel
  obtain ⟨done, readTarget, kept⟩ := runConvert_markdownFile not_leading_p
    (readText_quotesOnDisk 63) (isFolder_quotesOnDisk 63) false
  have refused := readInput_converted held readTarget
  rw [nesting_quoteMarks held only, if_neg (by decide)] at refused
  have source : readInput later "p.md".toList .markdown =
      .ok (Markdown.readTree .all (Markdown.quoteMarks 63)) :=
    readInput_of_readText (kept _ _ (locate_ne not_leading_p (readText_quotesOnDisk 63))
      (readText_quotesOnDisk 63))
  have context : ({} : Config).pageContext later (fun _ => none) = .ok _ := rfl
  have directRun := runTransform_of_readInput context { inputs := [] }
    (ofPath_markdownFile not_leading_p) source
  have stagedRun := runTransform_of_refused context { inputs := [] }
    (ofPath_jsonFile not_leading_p) refused
  exact ⟨done, congrArg Outcome.error directRun, refused, congrArg Outcome.error stagedRun,
    congrArg Outcome.printed stagedRun⟩

end Command

end PageTree
