import ControlStore.Text.Utf8

/-!
# `ControlStore.Source`: lines of a byte stream

A `Source` is the data that a stream delivers together with the way it ends: regularly, or by a
failure. Its lines end at a newline, and a carriage return right in front of the newline belongs to
the line ending. Data after the last newline is a line of its own, unless there is none, and no
empty line follows the last newline.

A line is delivered whole or not at all. When the stream fails, the complete lines before the
failure are delivered, the unfinished one is lost, and the failure stands in its place.
-/

set_option autoImplicit false

namespace ControlStore

/-- Why a line could not be read. -/
inductive ReadFault where
  /-- The bytes of the line are not valid UTF-8. -/
  | notUtf8
  /-- The stream failed before the line was complete. -/
  | interrupted (reason : String)
  deriving DecidableEq, Repr

/-- The wording of a read fault. -/
def ReadFault.message : ReadFault → String
  | .notUtf8 => "stream did not contain valid UTF-8"
  | .interrupted reason => reason

/-- What a stream delivers. -/
structure Source where
  /-- The data, up to the end of the stream or to its failure. -/
  bytes : List UInt8
  /-- The reason of the failure, if the stream does not end regularly. -/
  failure : Option String := none
  deriving DecidableEq, Repr

/-- One line of a source, without its line ending. -/
abbrev Line := Except ReadFault (List Char)

/-- The byte that ends a line. -/
def newline : UInt8 := 10

/-- The text without the carriage return at its end, if it has one there. -/
def Text.dropReturn (s : List Char) : List Char :=
  if s.getLast? = some '\r' then s.dropLast else s

/-- The line that the given bytes hold. -/
def Line.ofBytes (bytes : List UInt8) : Line :=
  match Text.decode? bytes with
  | some s => .ok s
  | none => .error .notUtf8

/-- The line that the given bytes hold in front of a newline. One carriage return at their end
belongs to the line ending. -/
def Line.ofTerminated (bytes : List UInt8) : Line :=
  (Line.ofBytes bytes).map Text.dropReturn

namespace Source

/-- The bytes of the complete lines, each without its newline. -/
def complete (s : Source) : List (List UInt8) :=
  (s.bytes.splitOn newline).dropLast

/-- The bytes after the last newline. -/
def rest (s : Source) : List UInt8 :=
  (s.bytes.splitOn newline).getLastD []

/-- The lines in order, the failure included. -/
def lines (s : Source) : List Line :=
  s.complete.map Line.ofTerminated ++
    match s.failure with
    | some reason => [.error (.interrupted reason)]
    | none => if s.rest = [] then [] else [Line.ofBytes s.rest]

end Source

end ControlStore
