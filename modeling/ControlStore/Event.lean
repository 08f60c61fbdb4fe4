import ControlStore.Hex
import ControlStore.RomSet.Build

/-!
# `ControlStore.Event`: what a compilation reports on its way

Events are values. Each has a severity and a wording, and a verbosity decides which of them are
shown. What was read, built and written fixes the events of a compilation, so they are computed
from these (`Event.ofProgram`, `Event.ofBuild`, `Event.ofListing`).
-/

set_option autoImplicit false

namespace ControlStore

/-- How severe an event is, from the most severe to the least. -/
inductive Severity where
  | error
  | warn
  | info
  | debug
  | trace
  deriving DecidableEq, Repr

namespace Severity

/-- The place of a severity in the order, the most severe first. -/
def rank : Severity → Nat
  | .error => 1
  | .warn => 2
  | .info => 3
  | .debug => 4
  | .trace => 5

/-- The name of a severity in capitals. -/
def label : Severity → String
  | .error => "ERROR"
  | .warn => "WARN"
  | .info => "INFO"
  | .debug => "DEBUG"
  | .trace => "TRACE"

end Severity

/-- The least severe events that are shown, or `none` to show no event. -/
abbrev Verbosity := Option Severity

namespace Verbosity

/-- The verbosity of a given name. -/
def ofName? : String → Option Verbosity
  | "off" => some none
  | "error" => some (some .error)
  | "warn" => some (some .warn)
  | "info" => some (some .info)
  | "debug" => some (some .debug)
  | "trace" => some (some .trace)
  | _ => none

/-- Whether events of a severity are shown. -/
def admits (verbosity : Verbosity) (severity : Severity) : Bool :=
  match verbosity with
  | none => false
  | some least => severity.rank ≤ least.rank

end Verbosity

/-- One thing that happened during a compilation. -/
inductive Event where
  /-- The source is about to be taken from standard input. -/
  | readingStandardInput
  /-- A file is about to be opened as the source. -/
  | readingFile (path : String)
  /-- A row was read. -/
  | stepRead (step : Step)
  /-- A step got its entry in the state table. -/
  | stateBuilt (step : Step) (entry : StateEntry)
  /-- The tables are complete. -/
  | tablesBuilt (steps pairs opcodes : Nat)
  /-- The program is compiled. -/
  | compiled (steps words : Nat)
  /-- A file is about to be created for the listing. -/
  | writingFile (path : String)
  /-- The listing is about to be written, with so many empty entries in its tables. -/
  | padding (states controls : Nat)
  deriving DecidableEq, Repr

namespace Event

/-- The severity of an event. -/
def severity : Event → Severity
  | .readingStandardInput => .info
  | .readingFile _ => .info
  | .stepRead _ => .trace
  | .stateBuilt _ _ => .trace
  | .tablesBuilt _ _ _ => .debug
  | .compiled _ _ => .info
  | .writingFile _ => .info
  | .padding _ _ => .debug

/-- The wording of an owner. -/
def ownerText : Option UInt8 → String
  | none => "None"
  | some opcode => s!"Some({opcode.toNat})"

/-- The wording of a next state. -/
def nextText : NextState → String
  | .continueAt address => s!"Continue({address.toNat})"
  | .fetchComplete => "FetchComplete"
  | .dispatch => "Dispatch"

/-- The wording of an event. -/
def message : Event → String
  | .readingStandardInput => "Reading microcode from stdin"
  | .readingFile path => s!"Reading microcode from '{path}'"
  | .stepRead step =>
    let control := Hex.byteText step.control.first ++ Hex.byteText step.control.second
    s!"step {step.position}: owner {ownerText step.owner} control {control}"
  | .stateBuilt step entry =>
    let state := Hex.byteText (entryAddress step.position)
    let control := Hex.byteText entry.controlAddress
    s!"line {step.line} -> state {state}: control {control} next {nextText entry.next}"
  | .tablesBuilt steps pairs opcodes =>
    s!"{steps} steps, {pairs} unique control pairs, {opcodes} opcodes"
  | .compiled steps words => s!"Compiled {steps} microcode steps into {words} control words"
  | .writingFile path => s!"Writing ROM tables to '{path}'"
  | .padding states controls =>
    s!"padding state table with {states} entries, control table with {controls}"

/-- The events of reading the steps of a program. -/
def ofProgram (program : Program) : List Event :=
  program.map .stepRead

/-- The events of building the tables of a program. -/
def ofBuild (program : Program) (roms : RomSet) : List Event :=
  List.zipWith .stateBuilt program roms.states ++
    [.tablesBuilt program.length roms.controls.length roms.opcodes.filled.length]

/-- The event of writing the listing of some tables. -/
def ofListing (roms : RomSet) : Event :=
  .padding (capacity - roms.states.length) (capacity - roms.controls.length)

end Event

end ControlStore
