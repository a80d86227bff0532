import PageTree.Proofs.Command.Converting
import PageTree.Proofs.Files.Components
import PageTree.Proofs.Files.Shown

/-!
The file that the tree of an input is written into. Its name has the stem of the input as text, so an
input that is an output of some input is its own. An input reads the same, whatever the outputs of
other inputs hold.
-/

namespace PageTree

def leadInto (folder : Path) : Path :=
  if folder = [] ∨ folder.getLast? = some '/' then folder else folder ++ ['/']

theorem leading_leadInto (folder : Path) : Leading (leadInto folder) := by
  rw [leadInto]
  split
  · next done =>
    rcases done with none | last
    · exact .inl none
    · obtain ⟨front, same⟩ := List.getLast?_eq_some_iff.mp last
      exact .inr ⟨front, same⟩
  · exact .inr ⟨folder, rfl⟩

theorem FileSystem.locateFolder_leadInto (files : FileSystem) (cwd : Place) (folder : Path) :
    files.locateFolder cwd (leadInto folder) = files.locateFolder cwd folder := by
  rw [leadInto]
  split
  · rfl
  · next other => exact files.locateFolder_slash cwd (not_or.mp other).1

theorem Path.join_name (folder : Path) {name : List Char} (inner : '/' ∉ name) :
    join folder name = leadInto folder ++ name := by
  have none : Leading [] := .inl rfl
  have relative : Path.isAbsolute name = false := isAbsolute_leading none inner
  rw [join, relative, leadInto]
  split
  · contradiction
  · split <;> simp

/-- The name of the file that the tree of an input is written into. -/
def outputName (input : Path) : List Char :=
  Path.ofText (Path.display (input.stem?.getD "tree".toList) ++ ".json")

theorem outputPath_eq_join (folder input : Path) :
    outputPath folder input = folder.join (outputName input) := rfl

/-- Names of outputs: a stem, which is a text, with the extension of trees. -/
def IsOutput (name : List Char) : Prop :=
  ∃ stem : String, stem ≠ "" ∧ '/' ∉ stem.toList ∧ name = Path.ofText (stem ++ ".json")

theorem ofText_output (stem : String) :
    Path.ofText (stem ++ ".json") = Path.ofText stem ++ '.' :: "json".toList := by
  rw [Path.ofText_append, Path.ofText_json]

theorem ofText_ne_nil {text : String} (some : text ≠ "") : Path.ofText text ≠ [] := by
  intro none
  have shown := Path.display_ofText text
  rw [none] at shown
  exact some shown.symm

theorem IsOutput.isName {name : List Char} (isOutput : IsOutput name) : IsName name := by
  obtain ⟨stem, some, inner, rfl⟩ := isOutput
  rw [ofText_output]
  exact isName_append (ofText_ne_nil some)
    (fun member => inner (Path.mem_of_mem_ofText (by decide) member)) (by decide) (by decide)

theorem exists_extension {path : Path} {format : InputFormat}
    (known : InputFormat.ofPath path = .ok format) :
    ∃ extension, path.extension? = some extension := by
  cases found : path.extension? with
  | none => simp [InputFormat.ofPath, found] at known
  | some extension => exact ⟨extension, rfl⟩

theorem isOutput_of_ofPath {path : Path} {format : InputFormat}
    (known : InputFormat.ofPath path = .ok format) : IsOutput (outputName path) := by
  obtain ⟨extension, ends⟩ := exists_extension known
  rw [Path.extension?] at ends
  obtain ⟨name, last, ends⟩ := Option.bind_eq_some_iff.mp ends
  have split : Path.splitName name = ((Path.splitName name).1, some extension) := by rw [← ends]
  obtain ⟨whole, some⟩ := Path.eq_of_splitName split
  have isName : IsName name := by
    rw [Path.fileName?] at last
    split at last
    · next text final =>
      obtain rfl := Option.some.inj last
      exact Path.isName_of_mem_components (List.mem_of_getLast? final)
    · cases last
  have stem : path.stem? = (Path.splitName name).1 := by
    rw [Path.stem?, last]
    rfl
  refine ⟨Path.display (Path.splitName name).1, fun none => ?_, fun member => isName.inner ?_, ?_⟩
  · have shown := congrArg String.toList none
    rw [Path.display, String.toList_ofList] at shown
    exact Path.shown_ne_nil some shown
  · rw [Path.display, String.toList_ofList] at member
    have inStem := Path.mem_of_mem_shown (by decide) (by decide) member
    rw [whole]
    exact List.mem_append_left _ inStem
  · rw [outputName, stem, Option.getD_some]

theorem outputName_of_isOutput {start name : List Char} (leading : Leading start)
    (isOutput : IsOutput name) : outputName (start ++ name) = name := by
  have isName := isOutput.isName
  obtain ⟨stem, some, -, rfl⟩ := isOutput
  rw [ofText_output] at isName ⊢
  rw [outputName, Path.stem?_name leading isName (ofText_ne_nil some) (by decide), Option.getD_some,
    Path.display_ofText, ofText_output]

namespace FileSystem

/-- The files are the same but for some outputs in the folder at a place, none of them the output of the
given input, and none of them a folder. -/
def OthersChanged (place : Place) (input : Path) (files others : FileSystem) : Prop :=
  ∀ here, others.find? here = files.find? here ∨
    (∃ name, IsOutput name ∧ name ≠ outputName input ∧ here = place ++ [name]) ∧
      files.find? here ≠ some .folder ∧ others.find? here ≠ some .folder

namespace OthersChanged

variable {place : Place} {input : Path} {files others : FileSystem}
  (changed : files.OthersChanged place input others)

include changed

theorem symm : others.OthersChanged place input files := by
  intro here
  rcases changed here with same | ⟨output, first, last⟩
  · exact .inl same.symm
  · exact .inr ⟨output, last, first⟩

theorem keeps : files.Keeps others := by
  intro here known
  rcases changed here with same | ⟨-, free, -⟩
  · exact same.trans known
  · exact absurd known free

theorem find? {here : Place}
    (outside : ∀ name, IsOutput name → name ≠ outputName input → here ≠ place ++ [name]) :
    others.find? here = files.find? here := by
  rcases changed here with same | ⟨⟨name, isOutput, apart, rfl⟩, -⟩
  · exact same
  · exact absurd rfl (outside name isOutput apart)

theorem find?_output : others.find? (place ++ [outputName input]) =
    files.find? (place ++ [outputName input]) := by
  refine changed.find? fun name _ apart same => ?_
  obtain ⟨-, last⟩ := List.append_inj' same rfl
  exact apart (List.singleton_inj.mp last).symm

end OthersChanged

end FileSystem

theorem FileSystem.locate_outputPath {files : FileSystem} {cwd target : Place} {folder input : Path}
    (isOutput : IsOutput (outputName input)) :
    files.locate cwd (outputPath folder input) = .ok target ↔
      Char.ofNat 0 ∉ leadInto folder ++ outputName input ∧ ∃ place,
        files.locateFolder cwd folder = .ok place ∧ files.find? place = some .folder ∧
          target = place ++ [outputName input] := by
  have isName := isOutput.isName
  rw [outputPath_eq_join, Path.join_name folder isName.inner,
    FileSystem.locate_name (leading_leadInto folder) isName, FileSystem.locateFolder_leadInto]

theorem FileSystem.namesFolder_outputPath {folder input : Path}
    (isOutput : IsOutput (outputName input)) : namesFolder (outputPath folder input) = false := by
  have isName := isOutput.isName
  rw [outputPath_eq_join, Path.join_name folder isName.inner]
  exact namesFolder_name _ isName.inner isName.some

namespace Command

open FileSystem (Disk)

namespace Batch

theorem exists_of_process {b : Batch} {files : FileSystem} {path : Path} {format : InputFormat}
    {done : Processed} (process : b.process files path format = .ok done) :
    ∃ text, files.readText b.cwd path = .ok text := by
  rw [Batch.process, readInput] at process
  cases read : Workspace.readText ⟨files, b.cwd⟩ path with
  | error cause => simp [read, Except.map] at process
  | ok text => exact ⟨text, read⟩

theorem exists_name_of_process {b : Batch} {files : FileSystem} {path : Path} {format : InputFormat}
    {done : Processed} (known : InputFormat.ofPath path = .ok format)
    (process : b.process files path format = .ok done) :
    ∃ start name folder, Leading start ∧ path = start ++ name ∧
      files.locate b.cwd path = .ok (folder ++ [name]) := by
  obtain ⟨extension, ends⟩ := exists_extension known
  obtain ⟨text, read⟩ := exists_of_process process
  obtain ⟨place, leads, file, plain⟩ := FileSystem.exists_of_readText read
  have free : files.find? place ≠ some .folder := by simp [file]
  obtain ⟨start, name, leading, isName, rfl⟩ := FileSystem.exists_name leads free plain ends
  obtain ⟨-, folder, -, -, rfl⟩ := (FileSystem.locate_name leading isName).mp leads
  exact ⟨start, name, folder, leading, rfl, leads⟩

/-- Outputs of other inputs do not matter to an input. -/
theorem process_of_othersChanged {b : Batch} {place : Place} {files others : FileSystem} {path : Path}
    (changed : files.OthersChanged place path others) {format : InputFormat}
    (known : InputFormat.ofPath path = .ok format) {done : Processed}
    (process : b.process files path format = .ok done) :
    b.process others path format = .ok done := by
  obtain ⟨start, name, folder, leading, rfl, leads⟩ := exists_name_of_process known process
  have same : others.find? (folder ++ [name]) = files.find? (folder ++ [name]) := by
    refine changed.find? fun output isOutput apart whole => ?_
    obtain ⟨-, last⟩ := List.append_inj' whole rfl
    obtain rfl := List.singleton_inj.mp last
    exact apart (outputName_of_isOutput leading isOutput).symm
  have read : others.readText b.cwd (start ++ name) = files.readText b.cwd (start ++ name) :=
    changed.keeps.readText leads same
  have input : readInput ⟨others, b.cwd⟩ (start ++ name) format =
      readInput ⟨files, b.cwd⟩ (start ++ name) format := by
    rw [readInput, readInput, Workspace.readText, Workspace.readText, read]
  rw [Batch.process, input]
  exact process

/-- An input reads and its output can be opened, in the folder at a place. -/
structure Opens (b : Batch) (disk : Disk) (folder : Path) (place : Place) (files : FileSystem)
    (input : Path × InputFormat) (done : Processed) : Prop where
  process : b.process files input.1 input.2 = .ok done
  leads : files.locateFolder b.cwd folder = .ok place
  isFolder : files.find? place = some .folder
  plain : Char.ofNat 0 ∉ leadInto folder ++ outputName input.1
  free : files.find? (place ++ [outputName input.1]) ≠ some .folder
  allowed : disk.refuses? (place ++ [outputName input.1]) = none

/-- The output can be written too. -/
structure Ran (b : Batch) (disk : Disk) (folder : Path) (place : Place) (files : FileSystem)
    (input : Path × InputFormat) (done : Processed) : Prop
    extends b.Opens disk folder place files input done where
  whole : disk.breaksOff? (place ++ [outputName input.1]) (done.text ++ "\n") = none

section Writing

variable {b : Batch} {disk : Disk} {folder : Path} {place : Place} {files others : FileSystem}
  {input : Path × InputFormat} {done : Processed}

theorem Opens.of_othersChanged (changed : files.OthersChanged place input.1 others)
    (known : InputFormat.ofPath input.1 = .ok input.2)
    (opens : b.Opens disk folder place files input done) :
    b.Opens disk folder place others input done where
  process := process_of_othersChanged changed known opens.process
  leads := changed.keeps.locateFolder opens.leads
  isFolder := changed.keeps place opens.isFolder
  plain := opens.plain
  free := changed.find?_output.trans_ne opens.free
  allowed := opens.allowed

theorem Opens.locate (known : InputFormat.ofPath input.1 = .ok input.2)
    (opens : b.Opens disk folder place files input done) :
    files.locate b.cwd (outputPath folder input.1) = .ok (place ++ [outputName input.1]) :=
  (FileSystem.locate_outputPath (isOutput_of_ofPath known)).mpr
    ⟨opens.plain, place, opens.leads, opens.isFolder, rfl⟩

theorem createOutput_eq_ok_iff (unlinked : disk.linked = [])
    (known : InputFormat.ofPath input.1 = .ok input.2)
    (process : b.process files input.1 input.2 = .ok done) {target : Place} :
    createOutput ⟨files, b.cwd⟩ disk (outputPath folder input.1) = .ok (target, others) ↔
      ∃ place, b.Opens disk folder place files input done ∧ target = place ++ [outputName input.1] ∧
        others = files.put target (.file (some "")) := by
  have isOutput := isOutput_of_ofPath known
  have same : createOutput ⟨files, b.cwd⟩ disk (outputPath folder input.1) = .ok (target, others) ↔
      files.create disk b.cwd (outputPath folder input.1) = .ok (target, others) := by
    rw [createOutput]
    cases files.create disk b.cwd (outputPath folder input.1) <;> simp [Except.mapError]
  rw [same, FileSystem.create_eq_ok_iff unlinked, FileSystem.locate_outputPath isOutput]
  constructor
  · rintro ⟨⟨plain, place, within, isFolder, rfl⟩, free, -, allowed, rfl⟩
    exact ⟨place, ⟨process, within, isFolder, plain, free, allowed⟩, rfl, rfl⟩
  · rintro ⟨place, opens, rfl, rfl⟩
    exact ⟨⟨opens.plain, place, opens.leads, opens.isFolder, rfl⟩, opens.free,
      FileSystem.namesFolder_outputPath isOutput, opens.allowed, rfl⟩

theorem writeOutput_whole (unlinked : disk.linked = []) {target : Place} {text : String}
    (whole : disk.breaksOff? target (text ++ "\n") = none) :
    writeOutput files disk target text =
      (files.put target (.file (some (text ++ "\n"))), none) := by
  rw [writeOutput, FileSystem.write_whole unlinked whole]
  rfl

theorem writeOutput_brokenOff (unlinked : disk.linked = []) {target : Place} {text : String}
    {count : Nat} {cause : FileError}
    (broken : disk.breaksOff? target (text ++ "\n") = some (count, cause)) :
    writeOutput files disk target text = (files.put target (.file
      ((FileSystem.firstBytes count (text ++ "\n").toList).map String.ofList)),
        some (.unwritten cause)) := by
  rw [writeOutput, FileSystem.write_brokenOff unlinked broken]
  rfl

end Writing

end Batch

end Command

end PageTree
