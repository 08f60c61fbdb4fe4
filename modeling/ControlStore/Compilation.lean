import ControlStore.Event
import ControlStore.Fault

/-!
# `ControlStore.Compilation`: from a source to its tables

A compilation reads a source with a new reader and builds the tables of the program. It keeps the
program also when it fails, since the steps read up to the fault have been reported by then.
-/

set_option autoImplicit false

namespace ControlStore

/-- What became of a source. -/
structure Compilation where
  /-- The steps that were read. -/
  program : Program
  /-- The tables, or what prevented them. -/
  result : Except Fault RomSet

namespace Compilation

/-- Compiles a source. -/
def ofSource (source : Source) : Compilation :=
  match Reader.empty.read source with
  | (reader, some fault) => ⟨reader.program, .error (.source fault)⟩
  | (reader, none) => ⟨reader.program, reader.program.build.mapError .program⟩

/-- The events of a compilation. Nothing is reported of tables that were not built. -/
def events (compilation : Compilation) : List Event :=
  Event.ofProgram compilation.program ++
    match compilation.result with
    | .error _ => []
    | .ok roms => Event.ofBuild compilation.program roms

end Compilation

/-- The bytes of the listing of some tables. -/
def RomSet.listing (roms : RomSet) : List UInt8 :=
  (Sink.unbounded.emit roms).1.held.toList

/-- Written piece by piece, the listing is the encoding of its text. -/
theorem RomSet.listing_eq_encode_text (roms : RomSet) :
    roms.listing = Text.encode (Listing.text roms) := by
  rw [listing, Sink.emit_unbounded]

end ControlStore
