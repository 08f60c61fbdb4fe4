import ControlStore.ByteTable
import ControlStore.Row

/-!
# `ControlStore.Reader`: reading a microcode table

A `Reader` holds what has been read so far. It can be given one source after another, and line
numbers, owner, opcode lines and steps carry over from each to the next. Reading stops at the first
line with a fault and reports it, together with the reader as it stands then: the line is counted,
and an opcode that was entered before the fault was met stays entered.

Main definitions: `Reader.readRow` for one row, `Reader.readLine` for one line, `Reader.read` for a
source.
-/

set_option autoImplicit false

namespace ControlStore

/-- Why a source was not read to its end. -/
inductive SourceFault where
  /-- A line is no row. -/
  | badLine (line : Nat) (cause : LineFault)
  /-- The opcode of a row already opened a sequence on an earlier line. -/
  | duplicateOpcode (line : Nat) (opcode : UInt8) (firstLine : Nat)
  deriving DecidableEq, Repr

/-- The line that a fault was met on. -/
def SourceFault.line : SourceFault → Nat
  | .badLine line _ => line
  | .duplicateOpcode line _ _ => line

/-- The wording of a source fault. -/
def SourceFault.message : SourceFault → String
  | .badLine line cause => s!"Error on line {line}: {cause.message}"
  | .duplicateOpcode line opcode firstLine =>
    s!"Error on line {line}: Opcode {Hex.byteText opcode} already started a sequence " ++
      s!"on line {firstLine}"

/-- What has been read so far. -/
structure Reader where
  /-- The number of lines taken, which is the number of the last one. -/
  line : Nat := 0
  /-- The opcode whose sequence the next row continues. -/
  owner : Option UInt8 := none
  /-- For each opcode that opened a sequence, the line of its row. -/
  opcodeLines : ByteTable (Option Nat) := .replicate none
  /-- The steps of the rows read so far. -/
  steps : Array Step := #[]
  deriving DecidableEq, Repr

namespace Reader

/-- A reader that has read nothing. -/
def empty : Reader := {}

/-- The program read so far. -/
def program (r : Reader) : Program :=
  r.steps.toList

/-- The opcode field of a row: nothing, or an opcode that has not opened a sequence yet. -/
def readOpcode (r : Reader) (row : Row) : Except SourceFault (Option UInt8) :=
  match row.readOpcode with
  | .error cause => .error (.badLine r.line cause)
  | .ok none => .ok none
  | .ok (some opcode) =>
    match r.opcodeLines.get opcode with
    | some firstLine => .error (.duplicateOpcode r.line opcode firstLine)
    | none => .ok (some opcode)

/-- Enters the opcode of the current line, which owns the rows from here on. A row without an
opcode continues the sequence of the last one. -/
def enterOpcode (r : Reader) : Option UInt8 → Reader
  | none => r
  | some opcode =>
    { r with owner := some opcode, opcodeLines := r.opcodeLines.set opcode (some r.line) }

/-- Adds the step of the current line. -/
def addStep (r : Reader) (opcode : Option UInt8) (control : ControlPair) : Reader :=
  { r with
      steps := r.steps.push
        { position := r.steps.size, line := r.line, opcode, owner := r.owner, control } }

/-- Reads the row of the current line. The opcode is entered before the control fields are read. -/
def readRow (r : Reader) (row : Row) : Reader × Option SourceFault :=
  match r.readOpcode row with
  | .error fault => (r, some fault)
  | .ok opcode =>
    match row.readControl with
    | .error cause => (r.enterOpcode opcode, some (.badLine r.line cause))
    | .ok control => ((r.enterOpcode opcode).addStep opcode control, none)

/-- Counts one more line. -/
def nextLine (r : Reader) : Reader :=
  { r with line := r.line + 1 }

/-- Reads one line. A blank line is only counted. -/
def readLine (r : Reader) (line : Line) : Reader × Option SourceFault :=
  match line with
  | .error cause => (r.nextLine, some (.badLine r.nextLine.line (.unreadable cause)))
  | .ok text =>
    match Row.ofLine? text with
    | .error cause => (r.nextLine, some (.badLine r.nextLine.line cause))
    | .ok none => (r.nextLine, none)
    | .ok (some row) => r.nextLine.readRow row

/-- Reads lines up to the first fault. -/
def readLines (r : Reader) : List Line → Reader × Option SourceFault
  | [] => (r, none)
  | line :: lines =>
    match r.readLine line with
    | (r', none) => r'.readLines lines
    | (r', some fault) => (r', some fault)

/-- Reads a source up to its first fault. -/
def read (r : Reader) (source : Source) : Reader × Option SourceFault :=
  r.readLines source.lines

/-- Entering an opcode counts no line. -/
@[simp] theorem line_enterOpcode (r : Reader) (opcode : Option UInt8) :
    (r.enterOpcode opcode).line = r.line := by
  cases opcode <;> rfl

/-- Entering an opcode adds no step. -/
@[simp] theorem steps_enterOpcode (r : Reader) (opcode : Option UInt8) :
    (r.enterOpcode opcode).steps = r.steps := by
  cases opcode <;> rfl

/-- Lines that follow others are read by the reader those leave, unless they stopped it. -/
theorem readLines_append (r : Reader) (before after : List Line) :
    r.readLines (before ++ after) =
      match r.readLines before with
      | (r', none) => r'.readLines after
      | (r', some fault) => (r', some fault) := by
  induction before generalizing r with
  | nil => rfl
  | cons line before ih =>
    simp only [List.cons_append, readLines]
    rcases r.readLine line with ⟨r', _ | fault⟩
    · exact ih r'
    · rfl

/-- A single line is read like a list of it. -/
@[simp] theorem readLines_singleton (r : Reader) (line : Line) :
    r.readLines [line] = r.readLine line := by
  rw [readLines]
  rcases r.readLine line with ⟨r', _ | fault⟩ <;> rfl

end Reader

end ControlStore
