import ControlStore.Hex
import ControlStore.Source
import ControlStore.Step
import ControlStore.Text.Blank

/-!
# `ControlStore.Row`: the three fields of a line

A row has an opcode field and two control fields, with tabs between them. A run of tabs counts as
one: empty pieces are dropped, except a first one, which is an empty opcode field. A piece of blank
characters still counts as a field. Each field is taken without the blank characters at its ends.

`Row.ofLine?` gives the row of a line, or `none` for a blank line. The fields are not yet read as
numbers, because an opcode is entered into the record before the control fields are looked at.
-/

set_option autoImplicit false

namespace ControlStore

/-- The columns of a row. -/
inductive Column where
  | opcode
  | control1
  | control2
  deriving DecidableEq, Repr

/-- The name of a column in messages. -/
def Column.name : Column → String
  | .opcode => "opcode"
  | .control1 => "control1"
  | .control2 => "control2"

/-- Why a single line is no row. -/
inductive LineFault where
  /-- The line could not be read. -/
  | unreadable (cause : ReadFault)
  /-- The line has another number of fields than three. -/
  | fieldCount (found : Nat)
  /-- A field is no byte. -/
  | badByte (column : Column) (field : List Char) (cause : Hex.Fault)
  deriving DecidableEq, Repr

/-- The wording of a line fault. -/
def LineFault.message : LineFault → String
  | .unreadable cause => s!"Failed to read line: {cause.message}"
  | .fieldCount found =>
    s!"Expected 3 tab-separated fields (opcode, control1, control2), found {found}"
  | .badByte column field .notHex =>
    s!"Invalid {column.name} '{String.ofList field}', expected hex digits"
  | .badByte column field .tooLarge =>
    s!"Invalid {column.name} '{String.ofList field}', value exceeds FF"

/-- The fields of a row, not yet read as numbers. -/
structure Row where
  opcode : List Char
  control1 : List Char
  control2 : List Char
  deriving DecidableEq, Repr

namespace Row

/-- The pieces of a line between tabs. Empty pieces after the first are dropped. -/
def fields (line : List Char) : List (List Char) :=
  match line.splitOn '\t' with
  | [] => []
  | first :: later => first :: later.filter (· ≠ [])

/-- The row of a line with exactly three fields. -/
def ofFields (line : List Char) : Except LineFault Row :=
  match (fields line).map Text.trim with
  | [opcode, control1, control2] => .ok ⟨opcode, control1, control2⟩
  | found => .error (.fieldCount found.length)

/-- The row of a line, or `none` if the line is blank. Carriage returns at the end of the line
belong to its ending and are dropped first. -/
def ofLine? (line : List Char) : Except LineFault (Option Row) :=
  let content := Text.dropTrailing (· = '\r') line
  if content.all Text.isBlank then .ok none
  else (ofFields content).map some

/-- The byte in one field. -/
def readField (column : Column) (field : List Char) : Except LineFault UInt8 :=
  (Hex.readByte field).mapError (LineFault.badByte column field)

/-- The opcode of a row, if its field is not empty. -/
def readOpcode (row : Row) : Except LineFault (Option UInt8) :=
  if row.opcode = [] then .ok none else (readField .opcode row.opcode).map some

/-- The control bytes of a row. The first field is looked at first. -/
def readControl (row : Row) : Except LineFault ControlPair := do
  let first ← readField .control1 row.control1
  let second ← readField .control2 row.control2
  return ⟨first, second⟩

end Row

end ControlStore
