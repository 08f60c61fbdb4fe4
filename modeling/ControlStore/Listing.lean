import ControlStore.Hex
import ControlStore.RomSet

/-!
# `ControlStore.Listing`: the tables as text

The listing has three blocks, for the opcode, state and control table, with an empty line between
them. A block has 32 lines of eight bytes. A byte is written as a literal with a comma and a space
behind it, and each line ends in a comment with the address of its first byte.

The text is given in pieces, one for each byte and one for each line end, because it is written
piece by piece (`ControlStore.Sink`).
-/

set_option autoImplicit false

namespace ControlStore.Listing

/-- The number of bytes on a line. -/
def bytesPerLine : Nat := 8

/-- The number of lines in a block. -/
def linesPerBlock : Nat := 32

/-- The literal of one byte. -/
def literal (b : UInt8) : List Char :=
  ['x', '"'] ++ Hex.ofByte b ++ ['"', ',', ' ']

/-- The end of a line, with the address of its first byte. -/
def lineEnd (address : UInt8) : List Char :=
  ['-', '-', ' '] ++ Hex.ofByte address ++ ['H', '\n']

/-- The pieces of line `n` of a block. -/
def linePieces (image : ByteTable UInt8) (n : Nat) : List (List Char) :=
  (List.range bytesPerLine).map
      (fun i => literal (image.get (UInt8.ofNat (n * bytesPerLine + i)))) ++
    [lineEnd (UInt8.ofNat (n * bytesPerLine))]

/-- The pieces of a block. -/
def blockPieces (image : ByteTable UInt8) : List (List Char) :=
  (List.range linesPerBlock).flatMap (linePieces image)

/-- The pieces of the whole listing. -/
def pieces (roms : RomSet) : List (List Char) :=
  blockPieces roms.opcodeImage ++ [['\n']] ++
    blockPieces roms.stateImage ++ [['\n']] ++
    blockPieces roms.controlImage

/-- The text of the listing. -/
def text (roms : RomSet) : List Char :=
  (pieces roms).flatten

end ControlStore.Listing
