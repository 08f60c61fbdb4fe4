import ControlStore.Compilation
import ControlStore.Options

/-!
# `ControlStore.Run`: a run of the program

A run takes the words of the command line and ends with an exit code. All that it does to the
outside goes through a `Host`. The command runs on the host of the operating system. `World.host`
acts on a `World` instead, which is a plain value that holds files, streams and events.

The output file is created after the tables are built. So a run that fails before leaves every file
as it was, and a file can be replaced by the listing made from it.
-/

set_option autoImplicit false

namespace ControlStore

/-- What a run needs from its surroundings. -/
structure Host (m : Type → Type) where
  /-- Reports events in order. -/
  log : List Event → m Unit
  /-- Takes all of standard input. -/
  standardInput : m Source
  /-- Opens a file for reading. -/
  openFile : String → m (Except FileFault Source)
  /-- Creates a file with the given content, or replaces the content it has. -/
  createFile : String → List UInt8 → m (Except FileFault Unit)
  /-- Writes to standard output. -/
  print : List UInt8 → m Unit

namespace Host

variable {m : Type → Type} [Monad m]

/-- The source that the options name. -/
def source (host : Host m) (options : Options) : m (Except FileFault Source) := do
  if options.readsStandardInput then
    host.log [.readingStandardInput]
    return .ok (← host.standardInput)
  else
    host.log [.readingFile options.input]
    host.openFile options.input

/-- Writes the listing of the tables to where the options say. -/
def deliver (host : Host m) (options : Options) (roms : RomSet) : m (Except Fault Unit) := do
  match options.output with
  | none =>
    host.log [Event.ofListing roms]
    host.print roms.listing
    return .ok ()
  | some path =>
    host.log [.writingFile path]
    match ← host.createFile path roms.listing with
    | .error fault => return .error (.file fault)
    | .ok () =>
      host.log [Event.ofListing roms]
      return .ok ()

/-- Compiles the source that the options name and writes the listing. -/
def compile (host : Host m) (options : Options) : m (Except Fault Unit) := do
  match ← host.source options with
  | .error fault => return .error (.file fault)
  | .ok source =>
    let compilation := Compilation.ofSource source
    host.log compilation.events
    match compilation.result with
    | .error fault => return .error fault
    | .ok roms =>
      host.log [.compiled compilation.program.length roms.controls.length]
      host.deliver options roms

end Host

/-- How a run ended. -/
inductive Ending where
  /-- The command was carried out. -/
  | done
  /-- The compilation stopped at a fault. -/
  | failed (fault : Fault)
  /-- The command line was not understood. -/
  | misused (fault : UsageFault)
  deriving DecidableEq, Repr

namespace Ending

/-- The exit code of a run. -/
def exitCode : Ending → UInt32
  | .done => 0
  | .failed _ => 1
  | .misused _ => 2

/-- What a run prints on standard error at its end. -/
def diagnosis : Ending → String
  | .done => ""
  | .failed fault => s!"Error: {fault.report}\n"
  | .misused fault => s!"error: {fault.message}\n"

end Ending

/-- Runs the program with the words of a command line. -/
def Host.run {m : Type → Type} [Monad m] (host : Host m) (words : List String) : m Ending := do
  match Command.ofWords words with
  | .error fault => return .misused fault
  | .ok .help =>
    host.print (Text.encode Command.helpText.toList)
    return .done
  | .ok .version =>
    host.print (Text.encode Command.versionText.toList)
    return .done
  | .ok (.compile options) =>
    match ← host.compile options with
    | .error fault => return .failed fault
    | .ok () => return .done

/-- All that a run can see and change. -/
structure World where
  /-- The files. -/
  files : FileStore
  /-- What standard input delivers. -/
  input : Source := { bytes := [] }
  /-- What was written to standard output. -/
  printed : List UInt8 := []
  /-- The events reported so far. -/
  journal : List Event := []
  deriving DecidableEq, Repr

namespace World

/-- The host that acts on a world. -/
def host : Host (StateM World) where
  log events := modify fun world => { world with journal := world.journal ++ events }
  standardInput := modifyGet fun world => (world.input, { world with input := { bytes := [] } })
  openFile path := return (← get).files.openFile path
  createFile path content := modifyGet fun world =>
    match world.files.createFile path content with
    | .error fault => (.error fault, world)
    | .ok files => (.ok (), { world with files })
  print bytes := modify fun world => { world with printed := world.printed ++ bytes }

/-- Runs the program in a world. -/
def run (world : World) (words : List String) : Ending × World :=
  (host.run words).run world

end World

end ControlStore
