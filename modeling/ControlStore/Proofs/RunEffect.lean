import ControlStore.Proofs.FileStore
import ControlStore.Proofs.Tables
import ControlStore.Run

/-!
# `ControlStore.Proofs.RunEffect`: what a run leaves behind

A run is given a command line that asks for a compilation, some files and standard input. Four
things can keep it from its listing (`Obstructed`): there is no data, the data has a bad line, it
has no tables, or the output file cannot be created. `run_compile_effect` says what becomes of the
files and of standard output in each case. An obstructed run changes nothing. Any other run prints
what the tables are emitted as, or leaves it as the content of the output file and changes no other
file.

The data is what standard input delivers, or the old content of the input file (`Options.data?`),
also when the output file is the same file under the same path or under another one. A directory and
a stream that fails have no data, because a source with a failure in it never compiles
(`Compilation.failure_eq_none_of_result_ok`).

The host delivers a source whole before the output file is created. In the proofs this order shows
in two lemmas: up to the tables a compilation leaves the world as it was
(`compile_run_of_source_ok`), and the delivery has nothing behind the output file that can fail
(`deliver_run_of_output_eq_some`).
-/

set_option autoImplicit false

namespace ControlStore

/-- All data of a source, if it does not fail before its end. -/
def Source.data? (source : Source) : Option (List UInt8) :=
  if source.failure = none then some source.bytes else none

/-- The data that a compilation is to read. For a path it is the content of the file there. -/
def Options.data? (options : Options) (files : FileStore) (stdin : Source) :
    Option (List UInt8) :=
  if options.input = "-" then stdin.data? else files.content? options.input

/-- What keeps a compilation from its listing. -/
inductive Obstructed (options : Options) (files : FileStore) (stdin : Source) : Prop where
  /-- The input cannot be opened, or it cannot be read to its end. -/
  | noData (hdata : options.data? files stdin = none)
  /-- The data has a bad line. -/
  | badSource {data : List UInt8} {r : Reader} {fault : SourceFault}
      (hdata : options.data? files stdin = some data)
      (hread : Reader.empty.read { bytes := data } = (r, some fault))
  /-- The program has no tables. -/
  | noTables {data : List UInt8} {r : Reader} {fault : ProgramFault}
      (hdata : options.data? files stdin = some data)
      (hread : Reader.empty.read { bytes := data } = (r, none))
      (hbuild : r.program.build = .error fault)
  /-- The output file cannot be created. -/
  | noOutput {path : String} {fault : FileFault} (hpath : options.output = some path)
      (htarget : files.target path = .error fault)

/-- When there is data with tables, only the output file can be in the way. -/
theorem Obstructed.exists_target_error {options : Options} {files : FileStore}
    {stdin : Source} {data : List UInt8} {r : Reader} {roms : RomSet}
    (h : Obstructed options files stdin) (hdata : options.data? files stdin = some data)
    (hread : Reader.empty.read { bytes := data } = (r, none))
    (hbuild : r.program.build = .ok roms) :
    ∃ path fault, options.output = some path ∧ files.target path = .error fault := by
  cases h with
  | noData hnone => cases hdata.symm.trans hnone
  | badSource hdata' hread' =>
    cases hdata.symm.trans hdata'
    cases hread.symm.trans hread'
  | noTables hdata' hread' hbuild' =>
    cases hdata.symm.trans hdata'
    cases hread.symm.trans hread'
    cases hbuild.symm.trans hbuild'
  | noOutput hpath htarget => exact ⟨_, _, hpath, htarget⟩

/-- Without an obstruction there are tables, and a place for the listing. -/
theorem not_obstructed_iff {options : Options} {files : FileStore} {stdin : Source} :
    ¬ Obstructed options files stdin ↔
      ∃ data r roms, options.data? files stdin = some data ∧
        Reader.empty.read { bytes := data } = (r, none) ∧ r.program.build = .ok roms ∧
        ∀ path, options.output = some path → ∃ place, files.target path = .ok place := by
  constructor
  · intro h
    cases hdata : options.data? files stdin with
    | none => exact absurd (.noData hdata) h
    | some data =>
      rcases hread : Reader.empty.read { bytes := data } with ⟨r, _ | fault⟩
      · cases hbuild : r.program.build with
        | error fault => exact absurd (.noTables hdata hread hbuild) h
        | ok roms =>
          refine ⟨data, r, roms, rfl, hread, hbuild, fun path hpath => ?_⟩
          cases htarget : files.target path with
          | error fault => exact absurd (.noOutput hpath htarget) h
          | ok place => exact ⟨place, rfl⟩
      · exact absurd (.badSource hdata hread) h
  · intro hclear hobstructed
    obtain ⟨data, r, roms, hdata, hread, hbuild, houtput⟩ := hclear
    obtain ⟨path, fault, hpath, htarget⟩ := hobstructed.exists_target_error hdata hread hbuild
    obtain ⟨place, hplace⟩ := houtput path hpath
    cases hplace.symm.trans htarget

/-- A source has tables when it is read to its end and its program has tables. -/
theorem Compilation.result_ofSource_eq_ok_iff {source : Source} {roms : RomSet} :
    (ofSource source).result = .ok roms ↔
      ∃ r, Reader.empty.read source = (r, none) ∧ r.program.build = .ok roms := by
  unfold ofSource
  rcases Reader.empty.read source with ⟨r, _ | fault⟩
  · cases hbuild : r.program.build with
    | error fault => simp [Except.mapError, hbuild]
    | ok roms' => simp [Except.mapError, hbuild]
  · simp

/-- A source has data exactly when it ends regularly, and the data is all that it delivers. -/
theorem Source.data?_eq_some_iff {source : Source} {data : List UInt8} :
    source.data? = some data ↔ source = { bytes := data } := by
  cases source with
  | mk bytes failure => cases failure <;> simp [data?]

/-- A source with a failure in it stops every reader, at the failure or before it. -/
theorem Reader.exists_fault_of_failure (r : Reader) (bytes : List UInt8) (reason : String) :
    ∃ r' fault, r.read ⟨bytes, some reason⟩ = (r', some fault) := by
  show ∃ r' fault, r.readLines (_ ++ [.error (.interrupted reason)]) = (r', some fault)
  rw [readLines_append]
  rcases r.readLines _ with ⟨r', _ | fault⟩
  · exact ⟨_, _, rfl⟩
  · exact ⟨r', fault, rfl⟩

/-- Only a source that does not fail has tables. -/
theorem Compilation.failure_eq_none_of_result_ok {source : Source} {roms : RomSet}
    (h : (ofSource source).result = .ok roms) : source.failure = none := by
  obtain ⟨r, hread, -⟩ := result_ofSource_eq_ok_iff.mp h
  cases source with
  | mk bytes failure =>
    cases failure with
    | none => rfl
    | some reason =>
      obtain ⟨r', fault, hfault⟩ := Reader.empty.exists_fault_of_failure bytes reason
      cases hread.symm.trans hfault

namespace World

/-- The files and standard output are as they were. Events may have been reported, and standard
input may have been taken. -/
structure Untouched (world world' : World) : Prop where
  files : world'.files = world.files
  printed : world'.printed = world.printed

/-- The source that the options name. -/
def source (world : World) (options : Options) : Except FileFault Source :=
  if options.input = "-" then .ok world.input else world.files.openFile options.input

/-- Data is delivered by a source that ends regularly. -/
theorem source_of_data?_eq_some {world : World} {options : Options} {data : List UInt8}
    (h : options.data? world.files world.input = some data) :
    world.source options = .ok { bytes := data } := by
  unfold Options.data? at h
  unfold source
  split at h
  · next hdash =>
    rw [if_pos hdash, Source.data?_eq_some_iff.mp h]
  · next hdash =>
    rw [if_neg hdash, FileStore.openFile_eq_ok h]

/-- Without data, there is no source, or one that fails. -/
theorem source_of_data?_eq_none {world : World} {options : Options}
    (h : options.data? world.files world.input = none) :
    (∃ fault, world.source options = .error fault) ∨
      ∃ source, world.source options = .ok source ∧ source.failure ≠ none := by
  unfold Options.data? at h
  unfold source
  split at h
  · next hdash =>
    have hfails : world.input.failure ≠ none := fun hnone => by simp [Source.data?, hnone] at h
    exact Or.inr ⟨world.input, if_pos hdash, hfails⟩
  · next hdash =>
    rw [if_neg hdash]
    rcases FileStore.openFile_of_content?_eq_none h with herror | ⟨reason, hopened⟩
    · exact Or.inl herror
    · exact Or.inr ⟨_, hopened, by simp⟩

/-! ### The parts of a run -/

/-- An action goes on from the world that the one before it leaves. -/
theorem run_bind_of_run_eq {α β : Type} {action : StateM World α} {next : α → StateM World β}
    {world world' : World} {a : α} (h : action.run world = (a, world')) :
    (action >>= next).run world = (next a).run world' := by
  rw [StateT.run_bind, h]
  rfl

/-- Events are added to the journal, and nothing else changes. -/
theorem log_run (world : World) (events : List Event) :
    (host.log events).run world = ((), { world with journal := world.journal ++ events }) :=
  rfl

/-- The host delivers the source that the options name, and leaves the files and the output alone.
-/
theorem source_run (world : World) (options : Options) :
    ∃ world', (host.source options).run world = (world.source options, world') ∧
      Untouched world world' := by
  unfold Host.source source
  by_cases hdash : options.input = "-"
  · simp only [Options.readsStandardInput, hdash, beq_self_eq_true, if_true]
    exact ⟨_, rfl, rfl, rfl⟩
  · have hbeq : (options.input == "-") = false := by simpa using hdash
    simp only [Options.readsStandardInput, hbeq, if_neg hdash]
    exact ⟨_, rfl, rfl, rfl⟩

/-- An input that cannot be opened is a fault, and all is as it was. -/
theorem compile_run_of_source_error {world : World} {options : Options} {fault : FileFault}
    (h : world.source options = .error fault) :
    ∃ world', (host.compile options).run world = (.error (.file fault), world') ∧
      Untouched world world' := by
  obtain ⟨world', hrun, huntouched⟩ := source_run world options
  rw [h] at hrun
  refine ⟨world', ?_, huntouched⟩
  rw [Host.compile, run_bind_of_run_eq hrun]
  rfl

/-- Up to the tables, a compilation leaves the world as it was. Then it fails or delivers. -/
theorem compile_run_of_source_ok {world : World} {options : Options} {source : Source}
    (h : world.source options = .ok source) :
    ∃ world', Untouched world world' ∧ (host.compile options).run world =
      match (Compilation.ofSource source).result with
      | .error fault => (.error fault, world')
      | .ok roms => (host.deliver options roms).run { world' with
          journal := world'.journal ++
            [.compiled (Compilation.ofSource source).program.length roms.controls.length] } := by
  obtain ⟨world', hrun, huntouched⟩ := source_run world options
  rw [h] at hrun
  refine ⟨{ world' with journal := world'.journal ++ (Compilation.ofSource source).events },
    ⟨huntouched.files, huntouched.printed⟩, ?_⟩
  rw [Host.compile, run_bind_of_run_eq hrun]
  dsimp only
  rw [run_bind_of_run_eq (log_run world' (Compilation.ofSource source).events)]
  cases (Compilation.ofSource source).result with
  | error fault => rfl
  | ok roms => rfl

/-- The host creates a file in the store of the world. -/
theorem createFile_run (world : World) (path : String) (content : List UInt8) :
    (host.createFile path content).run world =
      match world.files.createFile path content with
      | .error fault => (Except.error fault, world)
      | .ok files => (Except.ok (), { world with files }) :=
  rfl

/-- Without an output file, the listing is printed, and the files stay as they are. -/
theorem deliver_run_of_output_eq_none (world : World) {options : Options} (roms : RomSet)
    (h : options.output = none) :
    ∃ world', (host.deliver options roms).run world = (.ok (), world') ∧
      world'.files = world.files ∧ world'.printed = world.printed ++ roms.listing := by
  unfold Host.deliver
  rw [h]
  exact ⟨_, rfl, rfl, rfl⟩

/-- The output file is created before anything else can fail, and nothing fails behind it. -/
theorem deliver_run_of_output_eq_some (world : World) {options : Options} (roms : RomSet)
    {path : String} (h : options.output = some path) :
    ∃ world', Untouched world world' ∧ (host.deliver options roms).run world =
      match world.files.createFile path roms.listing with
      | .error fault => (.error (.file fault), world')
      | .ok files => (.ok (), { world' with
          files, journal := world'.journal ++ [Event.ofListing roms] }) := by
  let announced : World := { world with journal := world.journal ++ [.writingFile path] }
  have hrun := createFile_run announced path roms.listing
  rw [show announced.files = world.files from rfl] at hrun
  refine ⟨announced, ⟨rfl, rfl⟩, ?_⟩
  unfold Host.deliver
  rw [h]
  dsimp only
  rw [run_bind_of_run_eq (log_run world [.writingFile path])]
  cases hcreate : world.files.createFile path roms.listing with
  | error fault =>
    rw [hcreate] at hrun
    rw [run_bind_of_run_eq hrun]
    rfl
  | ok files =>
    rw [hcreate] at hrun
    rw [run_bind_of_run_eq hrun]
    rfl

/-- A command line that asks for a compilation is carried out by compiling. -/
theorem run_of_ofWords_eq_compile {words : List String} {options : Options}
    (h : Command.ofWords words = .ok (.compile options)) (world : World) :
    world.run words =
      match (host.compile options).run world with
      | (.error fault, world') => (.failed fault, world')
      | (.ok (), world') => (.done, world') := by
  unfold run Host.run
  rw [h]
  dsimp only
  rcases hrun : (host.compile options).run world with ⟨fault | ⟨⟩, world'⟩
  · rw [run_bind_of_run_eq hrun]
    rfl
  · rw [run_bind_of_run_eq hrun]
    rfl

/-! ### The whole run -/

/-- What a run came to: its exit code, all that it printed, and the files as they are then. -/
structure Leaves (outcome : Ending × World) (exitCode : UInt32) (printed : List UInt8)
    (files : FileStore) : Prop where
  exitCode_eq : outcome.1.exitCode = exitCode
  printed_eq : outcome.2.printed = printed
  files_eq : outcome.2.files = files

/-- Tables come from the data that the options name. A source that fails has none. -/
theorem exists_data?_of_result_ok {world : World} {options : Options} {source : Source}
    {roms : RomSet} (hsource : world.source options = .ok source)
    (hresult : (Compilation.ofSource source).result = .ok roms) :
    ∃ data r, options.data? world.files world.input = some data ∧
      Reader.empty.read { bytes := data } = (r, none) ∧ r.program.build = .ok roms := by
  obtain ⟨r, hread, hbuild⟩ := Compilation.result_ofSource_eq_ok_iff.mp hresult
  cases hdata : options.data? world.files world.input with
  | none =>
    rcases source_of_data?_eq_none hdata with ⟨fault, herror⟩ | ⟨failing, hopened, hfails⟩
    · cases hsource.symm.trans herror
    · cases hsource.symm.trans hopened
      exact absurd (Compilation.failure_eq_none_of_result_ok hresult) hfails
  | some data =>
    cases hsource.symm.trans (source_of_data?_eq_some hdata)
    exact ⟨data, r, rfl, hread, hbuild⟩

/-- From data with tables, a compilation comes to the delivery of its listing. -/
theorem compile_run_of_build_ok (world : World) {options : Options} {data : List UInt8}
    {r : Reader} {roms : RomSet} (hdata : options.data? world.files world.input = some data)
    (hread : Reader.empty.read { bytes := data } = (r, none))
    (hbuild : r.program.build = .ok roms) :
    ∃ world', (host.compile options).run world = (host.deliver options roms).run world' ∧
      Untouched world world' := by
  have hresult : (Compilation.ofSource { bytes := data }).result = .ok roms :=
    Compilation.result_ofSource_eq_ok_iff.mpr ⟨r, hread, hbuild⟩
  obtain ⟨world', huntouched, hrun⟩ := compile_run_of_source_ok (source_of_data?_eq_some hdata)
  rw [hresult] at hrun
  exact ⟨_, hrun, huntouched.files, huntouched.printed⟩

/-- An obstructed compilation fails, and all is as it was. -/
theorem compile_run_of_obstructed (world : World) {options : Options}
    (h : Obstructed options world.files world.input) :
    ∃ fault world', (host.compile options).run world = (.error fault, world') ∧
      Untouched world world' := by
  cases hsource : world.source options with
  | error fault =>
    obtain ⟨world', hrun, huntouched⟩ := compile_run_of_source_error hsource
    exact ⟨_, world', hrun, huntouched⟩
  | ok source =>
    obtain ⟨world', huntouched, hrun⟩ := compile_run_of_source_ok hsource
    cases hresult : (Compilation.ofSource source).result with
    | error fault =>
      rw [hresult] at hrun
      exact ⟨fault, world', hrun, huntouched⟩
    | ok roms =>
      -- There is data, and it has tables. So the obstruction is at the output file.
      obtain ⟨data, r, hdata, hread, hbuild⟩ := exists_data?_of_result_ok hsource hresult
      obtain ⟨path, fault, hpath, htarget⟩ :=
        h.exists_target_error hdata hread hbuild
      obtain ⟨world₁, hcompile, huntouched₁⟩ := compile_run_of_build_ok world hdata hread hbuild
      have hcreate : world₁.files.createFile path roms.listing = .error fault := by
        rw [huntouched₁.files]
        exact FileStore.createFile_eq_error htarget roms.listing
      obtain ⟨world₂, huntouched₂, hdeliver⟩ := deliver_run_of_output_eq_some world₁ roms hpath
      rw [hcreate] at hdeliver
      refine ⟨.file fault, world₂, hcompile.trans hdeliver, ?_, ?_⟩
      · rw [huntouched₂.files, huntouched₁.files]
      · rw [huntouched₂.printed, huntouched₁.printed]

/-- What a run leaves behind when its command line asks for a compilation. If something obstructs
it, the exit code is 1, nothing is printed, and the files are as they were. Otherwise the exit code
is 0, and what the tables of the data are emitted as is all that is printed, or is the whole content
of the output file, and no other file has changed. -/
theorem run_compile_effect (words : List String) (options : Options) (files : FileStore)
    (stdin : Source) (h : Command.ofWords words = .ok (.compile options)) :
    (Obstructed options files stdin → Leaves (run { files, input := stdin } words) 1 [] files) ∧
    (¬ Obstructed options files stdin →
      ∃ data r roms sink, options.data? files stdin = some data ∧
        Reader.empty.read { bytes := data } = (r, none) ∧ r.program.build = .ok roms ∧
        Sink.unbounded.emit roms = (sink, none) ∧
        (options.output = none →
          Leaves (run { files, input := stdin } words) 0 sink.held.toList files) ∧
        ∀ path, options.output = some path →
          ∃ place files', files.LeadsTo path place ∧
            files.Replaced files' place sink.held.toList ∧
            Leaves (run { files, input := stdin } words) 0 [] files') := by
  have hrun := run_of_ofWords_eq_compile h { files, input := stdin }
  constructor
  · intro hobstructed
    obtain ⟨fault, world', hcompile, huntouched⟩ :=
      compile_run_of_obstructed { files, input := stdin } hobstructed
    rw [hcompile] at hrun
    rw [hrun]
    exact ⟨rfl, huntouched.printed, huntouched.files⟩
  · intro hclear
    obtain ⟨data, r, roms, hdata, hread, hbuild, htarget⟩ := not_obstructed_iff.mp hclear
    obtain ⟨world₁, hcompile, huntouched⟩ :=
      compile_run_of_build_ok { files, input := stdin } hdata hread hbuild
    -- The listing is by definition what a sink without a limit is left with.
    have hemit : Sink.unbounded.emit roms = ((Sink.unbounded.emit roms).1, none) := by
      rw [Sink.emit_unbounded]
    refine ⟨data, r, roms, _, hdata, hread, hbuild, hemit, ?_, ?_⟩
    · intro houtput
      obtain ⟨world₂, hdeliver, hfiles, hprinted⟩ :=
        deliver_run_of_output_eq_none world₁ roms houtput
      rw [hcompile, hdeliver] at hrun
      rw [hrun]
      refine ⟨rfl, ?_, ?_⟩
      · rw [hprinted, huntouched.printed]
        rfl
      · rw [hfiles, huntouched.files]
    · intro path houtput
      obtain ⟨place, hplace⟩ := htarget path houtput
      obtain ⟨hleads, hfind⟩ := FileStore.target_eq_ok hplace
      have hcreate : world₁.files.createFile path roms.listing =
          .ok (files.put place (.file roms.listing)) := by
        rw [huntouched.files]
        exact FileStore.createFile_eq_ok hplace roms.listing
      obtain ⟨world₂, huntouched₂, hdeliver⟩ := deliver_run_of_output_eq_some world₁ roms houtput
      rw [hcreate] at hdeliver
      rw [hcompile, hdeliver] at hrun
      rw [hrun]
      refine ⟨place, files.put place (.file roms.listing), hleads,
        FileStore.replaced_put_file hfind roms.listing, rfl, ?_, rfl⟩
      exact huntouched₂.printed.trans huntouched.printed

/-- A store with the working directory `/w` and the one file `t` in it, which holds the line
`⇥1⇥2`. -/
def storeOfT : FileStore :=
  FileStore.plant { working := ⟨["w"]⟩ } "t" (.file [9, 49, 9, 50, 10])

/-- The file `t` is compiled, and the listing is to be written to the same file under another
path. -/
def inPlace : Options where
  input := "t"
  output := some "../w/t"

/-- The listing of the old content is the new content of the file, under each of its paths. -/
theorem run_inPlace_replaces :
    Command.ofWords ["-i", "t", "-o../w/t"] = .ok (.compile inPlace) ∧
    ¬ Obstructed inPlace storeOfT { bytes := [] } ∧ ∃ r roms sink,
      Reader.empty.read { bytes := [9, 49, 9, 50, 10] } = (r, none) ∧ r.program.build = .ok roms ∧
      Sink.unbounded.emit roms = (sink, none) ∧
      (run { files := storeOfT } ["-i", "t", "-o../w/t"]).1.exitCode = 0 ∧
      ∀ path ∈ ["t", "../w/t", "/w/t"],
        (run { files := storeOfT } ["-i", "t", "-o../w/t"]).2.files.content? path =
          some sink.held.toList := by
  have hwords : Command.ofWords ["-i", "t", "-o../w/t"] = .ok (.compile inPlace) := by
    decide +kernel
  have hdata : inPlace.data? storeOfT { bytes := [] } = some [9, 49, 9, 50, 10] := by
    decide +kernel
  have hcompiles : (Compilation.ofSource { bytes := [9, 49, 9, 50, 10] }).result.toOption.isSome :=
    by decide +kernel
  have hclear : ¬ Obstructed inPlace storeOfT { bytes := [] } := by
    obtain ⟨roms, hresult⟩ := Compilation.exists_ok_of_isSome hcompiles
    obtain ⟨r, hread, hbuild⟩ := Compilation.result_ofSource_eq_ok_iff.mp hresult
    refine not_obstructed_iff.mpr ⟨_, r, roms, hdata, hread, hbuild, fun path hpath => ?_⟩
    cases hpath
    exact ⟨⟨["t", "w"]⟩, by decide +kernel⟩
  -- All three paths lead to the place of the file.
  have hleadsTo : ∀ path ∈ ["t", "../w/t", "/w/t"], storeOfT.LeadsTo path ⟨["t", "w"]⟩ := by
    unfold FileStore.LeadsTo
    decide +kernel
  obtain ⟨data, r, roms, sink, hdata', hread, hbuild, hemit, -, hfile⟩ :=
    (run_compile_effect ["-i", "t", "-o../w/t"] inPlace storeOfT { bytes := [] } hwords).2 hclear
  cases hdata.symm.trans hdata'
  obtain ⟨place, files', hleads, hreplaced, hleaves⟩ := hfile "../w/t" rfl
  obtain rfl : place = ⟨["t", "w"]⟩ :=
    Except.ok.inj (hleads.symm.trans (hleadsTo "../w/t" (by decide)))
  refine ⟨hwords, hclear, r, roms, sink, hread, hbuild, hemit, hleaves.exitCode_eq, ?_⟩
  intro path hpath
  rw [hleaves.files_eq]
  exact hreplaced.path_here path (hleadsTo path hpath)

end World

end ControlStore
