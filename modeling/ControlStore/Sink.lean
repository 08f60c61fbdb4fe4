import ControlStore.Listing
import ControlStore.Text.Utf8

/-!
# `ControlStore.Sink`: writing piece by piece

A sink takes bytes, up to its limit if it has one. Of a piece that does not fit it takes what still
fits, and the write fails. `Sink.emit` writes the listing of the tables and stops at the first
write that fails.
-/

set_option autoImplicit false

namespace ControlStore

/-- Why a piece was not written. -/
inductive WriteFault where
  /-- The sink took only a part of the piece. -/
  | full
  deriving DecidableEq, Repr

/-- The wording of a write fault. -/
def WriteFault.message : WriteFault → String
  | .full => "failed to write whole buffer"

/-- A place to write to. -/
structure Sink where
  /-- The number of bytes that the sink can hold, if it is limited. -/
  limit : Option Nat := none
  /-- The bytes written so far. -/
  held : Array UInt8 := #[]
  deriving DecidableEq, Repr

namespace Sink

/-- An empty sink without a limit. -/
def unbounded : Sink := {}

/-- An empty sink that can hold `limit` bytes. -/
def ofLimit (limit : Nat) : Sink :=
  { limit := some limit }

/-- The part of some bytes that still fits. -/
def fitting (sink : Sink) (bytes : List UInt8) : List UInt8 :=
  match sink.limit with
  | none => bytes
  | some limit => bytes.take (limit - sink.held.size)

/-- Writes some bytes, as many as fit. -/
def write (sink : Sink) (bytes : List UInt8) : Sink × Option WriteFault :=
  let taken := sink.fitting bytes
  ({ sink with held := sink.held ++ taken },
    if taken.length = bytes.length then none else some .full)

/-- Writes pieces of text one after another, up to the first that does not fit. -/
def writePieces (sink : Sink) : List (List Char) → Sink × Option WriteFault
  | [] => (sink, none)
  | piece :: pieces =>
    match sink.write (Text.encode piece) with
    | (sink, none) => sink.writePieces pieces
    | (sink, some fault) => (sink, some fault)

/-- Writes the listing of the tables. -/
def emit (sink : Sink) (roms : RomSet) : Sink × Option WriteFault :=
  sink.writePieces (Listing.pieces roms)

/-- A sink without a limit takes every piece whole. -/
theorem writePieces_of_limit_eq_none (sink : Sink) (h : sink.limit = none)
    (pieces : List (List Char)) :
    sink.writePieces pieces =
      ({ sink with held := sink.held ++ Text.encode pieces.flatten }, none) := by
  induction pieces generalizing sink with
  | nil => simp [writePieces, Text.encode]
  | cons piece pieces ih =>
    have hw : sink.write (Text.encode piece) =
        ({ sink with held := sink.held ++ Text.encode piece }, none) := by
      simp [write, fitting, h]
    simp only [writePieces, hw]
    rw [ih { sink with held := sink.held ++ Text.encode piece } h]
    have hassoc : sink.held ++ Text.encode piece ++ Text.encode pieces.flatten =
        sink.held ++ (Text.encode piece ++ Text.encode pieces.flatten) :=
      Array.toList_inj.mp (by simp)
    simp [hassoc]

/-- An empty sink without a limit holds the text of all pieces. -/
theorem writePieces_unbounded (pieces : List (List Char)) :
    unbounded.writePieces pieces = ({ held := (Text.encode pieces.flatten).toArray }, none) := by
  rw [writePieces_of_limit_eq_none unbounded rfl]
  simp [unbounded]

/-- Without a limit, the whole text of the listing is written. -/
theorem emit_unbounded (roms : RomSet) :
    unbounded.emit roms = ({ held := (Text.encode (Listing.text roms)).toArray }, none) :=
  writePieces_unbounded (Listing.pieces roms)

end Sink

end ControlStore
