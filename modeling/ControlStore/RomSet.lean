import ControlStore.ByteTable
import ControlStore.Step

/-!
# `ControlStore.RomSet`: the three tables of a microprogram

The opcode table gives the address at which the sequence of an opcode starts. The state table gives
for each step the address of its control bytes and the state that follows. The control table holds
the control bytes themselves.

Each table is stored as 256 bytes. An opcode without a sequence has the address 0 in its image. The
other two tables have two bytes per entry. Their images hold the first 128 entries, and bytes past
the last entry are 0.
-/

set_option autoImplicit false

namespace ControlStore

/-- The number of two-byte entries that a table of 256 bytes holds. -/
def capacity : Nat := 128

/-- Within the capacity, addresses do not wrap around. -/
theorem toNat_entryAddress {i : Nat} (hi : i < capacity) : (entryAddress i).toNat = 2 * i := by
  simp only [capacity] at hi
  simp only [entryAddress, UInt8.toNat_ofNat']
  omega

/-- The second byte of an entry stands right behind the first. -/
theorem toNat_entryAddress_add_one {i : Nat} (hi : i < capacity) :
    (entryAddress i + 1).toNat = 2 * i + 1 := by
  simp only [UInt8.toNat_add, toNat_entryAddress hi, UInt8.reduceToNat]
  simp only [capacity] at hi
  omega

/-- Where the sequencer goes after a step. -/
inductive NextState where
  /-- To the following step of the same sequence, at the given address. -/
  | continueAt (address : UInt8)
  /-- The instruction is fetched, and its opcode selects the sequence. -/
  | fetchComplete
  /-- Back to the start of the program. -/
  | dispatch
  deriving DecidableEq, Repr

/-- The byte that stands for a next state in the state table. -/
def NextState.address : NextState → UInt8
  | .continueAt address => address
  | .fetchComplete => 0xFF
  | .dispatch => 0

/-- One entry of the state table. -/
structure StateEntry where
  /-- The address of the control bytes. -/
  controlAddress : UInt8
  /-- The state that follows. -/
  next : NextState
  deriving DecidableEq, Repr

/-- The three tables of a microprogram. -/
structure RomSet where
  /-- For each opcode the address of its first step, if it has a sequence. -/
  opcodes : ByteTable (Option UInt8)
  /-- The entries of the state table. -/
  states : List StateEntry
  /-- The entries of the control table. -/
  controls : List ControlPair
  deriving DecidableEq, Repr

namespace RomSet

/-- The image of a table of two-byte entries. -/
def pairImage (entries : List (UInt8 × UInt8)) : ByteTable UInt8 :=
  .ofFn fun address =>
    match entries[address.toNat / 2]? with
    | none => 0
    | some (first, second) => if address.toNat % 2 = 0 then first else second

/-- The first byte of entry `i` stands at the even address `2 * i`. -/
theorem get_pairImage_even (entries : List (UInt8 × UInt8)) {i : Nat} (hi : i < capacity) :
    (pairImage entries).get (entryAddress i) = (entries[i]?.map (·.1)).getD 0 := by
  have hdiv : 2 * i / 2 = i := Nat.mul_div_cancel_left i (by decide)
  simp only [pairImage, ByteTable.get_ofFn, toNat_entryAddress hi, hdiv]
  cases entries[i]? <;> simp

/-- The second byte of entry `i` stands behind the first. -/
theorem get_pairImage_odd (entries : List (UInt8 × UInt8)) {i : Nat} (hi : i < capacity) :
    (pairImage entries).get (entryAddress i + 1) = (entries[i]?.map (·.2)).getD 0 := by
  have hdiv : (2 * i + 1) / 2 = i := by omega
  have hmod : ¬ (2 * i + 1) % 2 = 0 := by omega
  simp only [pairImage, ByteTable.get_ofFn, toNat_entryAddress_add_one hi, hdiv, hmod]
  cases entries[i]? <;> simp

/-- The image of the opcode table. -/
def opcodeImage (roms : RomSet) : ByteTable UInt8 :=
  roms.opcodes.map (·.getD 0)

/-- The image of the state table. -/
def stateImage (roms : RomSet) : ByteTable UInt8 :=
  pairImage (roms.states.map fun entry => (entry.controlAddress, entry.next.address))

/-- The image of the control table. -/
def controlImage (roms : RomSet) : ByteTable UInt8 :=
  pairImage (roms.controls.map fun pair => (pair.first, pair.second))

end RomSet

end ControlStore
