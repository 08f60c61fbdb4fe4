import ControlStore.AddressBook
import ControlStore.RomSet

/-!
# `ControlStore.RomSet.Build`: from a program to its tables

`Program.build` gives the tables of a program of at most 128 steps. Step positions are taken as
they stand in the steps: the control address and the next state of an entry are those of the
position that its step names, and entries are listed in the order of the steps. A position that no
step has is a fault. A program that was read from a source has its steps at their own positions.

The next state of a position continues when the following step has the same owner. Otherwise the
third position of the program ends the fetch sequence, and any other position dispatches.
-/

set_option autoImplicit false

namespace ControlStore

/-- Why a program has no tables. -/
inductive ProgramFault where
  /-- The program has more steps than the state table holds. -/
  | tooManySteps (steps capacity : Nat)
  /-- A step names a position that no step of the program has. -/
  | strayPosition (position : Nat)
  deriving DecidableEq, Repr

/-- The wording of a program fault. -/
def ProgramFault.message : ProgramFault → String
  | .tooManySteps steps capacity =>
    s!"Program has {steps} microcode steps, but the state table only holds {capacity}"
  | .strayPosition position => s!"Step position {position} is past the end of the program"

/-- The number of steps that fetch an instruction. They open every program. -/
def fetchLength : Nat := 3

namespace Program

/-- The owners of the steps, in order. -/
def owners (program : Program) : List (Option UInt8) :=
  program.map (·.owner)

/-- The control pairs of the steps, in order. -/
def controls (program : Program) : List ControlPair :=
  program.map (·.control)

/-- The address of the first step of each opcode. Of two steps with the same opcode the later one
counts. -/
def opcodeTable (program : Program) : ByteTable (Option UInt8) :=
  program.foldl
    (fun table step =>
      match step.opcode with
      | none => table
      | some opcode => table.set opcode (some (entryAddress step.position)))
    (.replicate none)

end Program

/-- The state that follows a position, given the owners of all steps. -/
def NextState.ofOwners (owners : List (Option UInt8)) (position : Nat) : NextState :=
  if position + 1 < owners.length ∧ owners[position + 1]? = owners[position]? then
    .continueAt (entryAddress (position + 1))
  else if position + 1 = fetchLength then .fetchComplete
  else .dispatch

/-- The entry of a step, given the control addresses and the owners of all steps. -/
def StateEntry.ofStep (addresses : List UInt8) (owners : List (Option UInt8)) (step : Step) :
    Except ProgramFault StateEntry :=
  match addresses[step.position]? with
  | none => .error (.strayPosition step.position)
  | some address => .ok ⟨address, .ofOwners owners step.position⟩

/-- The tables of a program. -/
def Program.build (program : Program) : Except ProgramFault RomSet :=
  if capacity < program.length then .error (.tooManySteps program.length capacity)
  else
    let (addresses, book) := AddressBook.empty.internAll program.controls
    (program.mapM (StateEntry.ofStep addresses program.owners)).map fun states =>
      { opcodes := program.opcodeTable, states, controls := book.pairs }

end ControlStore
