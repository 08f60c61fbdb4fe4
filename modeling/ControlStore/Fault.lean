import ControlStore.FileStore
import ControlStore.Reader
import ControlStore.RomSet.Build
import ControlStore.Sink
import ControlStore.Text.Quoted

/-!
# `ControlStore.Fault`: everything that can stop a compilation

A fault is one of reading the source, of building the tables, of the files or of writing. It has
a message for the user and a report. The report names the kind of fault and lists what is known
about it, and it is what the program prints when it stops.
-/

set_option autoImplicit false

namespace ControlStore

/-- What stopped a compilation. -/
inductive Fault where
  | source (fault : SourceFault)
  | program (fault : ProgramFault)
  | file (fault : FileFault)
  | write (fault : WriteFault)
  deriving DecidableEq, Repr

/-- The message of a fault. -/
def Fault.message : Fault → String
  | .source fault => fault.message
  | .program fault => fault.message
  | .file fault => fault.numbered
  | .write fault => fault.message

/-- A kind of fault with the fields that are known about it. -/
def reportText (kind : String) (fields : List (String × String)) : String :=
  kind ++ " \x7b " ++
    String.intercalate ", " (fields.map fun (name, value) => name ++ ": " ++ value) ++ " \x7d"

/-- The kind of a file fault in a report. -/
def FileFault.kind : FileFault → String
  | .notFound => "NotFound"
  | .notDirectory => "NotADirectory"
  | .isDirectory => "IsADirectory"

/-- The report of a fault. -/
def Fault.report : Fault → String
  | .source (.badLine line cause) =>
    reportText "Parse"
      [("line_number", toString line), ("message", Text.quote cause.message)]
  | .source (.duplicateOpcode line opcode firstLine) =>
    reportText "DuplicateOpcode"
      [("line_number", toString line), ("opcode", toString opcode.toNat),
       ("first_line", toString firstLine)]
  | .program (.tooManySteps steps capacity) =>
    reportText "Capacity" [("steps", toString steps), ("capacity", toString capacity)]
  | .program (.strayPosition position) =>
    reportText "StrayPosition" [("position", toString position)]
  | .file fault =>
    let detail := reportText "Os"
      [("code", toString fault.code), ("kind", fault.kind), ("message", Text.quote fault.message)]
    s!"Io({detail})"
  | .write fault =>
    let detail := reportText "Error"
      [("kind", "WriteZero"), ("message", Text.quote fault.message)]
    s!"Io({detail})"

end ControlStore
