/-!
# `ControlStore.Step`: the steps of a microprogram

A microprogram is a list of steps. Each step drives one pair of control bytes. The steps of one
opcode follow each other: the first of them carries the opcode, and all of them are owned by it.
Steps before the first opcode have no owner.

The state table and the control table hold two bytes per entry, so the entry at position `p` has
the address `2 * p`, as far as a byte goes (`entryAddress`).
-/

set_option autoImplicit false

namespace ControlStore

/-- The two control bytes that are driven during one step. -/
structure ControlPair where
  first : UInt8
  second : UInt8
  deriving DecidableEq, Repr

/-- One step of a microprogram. -/
structure Step where
  /-- The place of the step in the program, counted from zero. -/
  position : Nat
  /-- The line of the source that holds the step, counted from one. -/
  line : Nat
  /-- The opcode whose sequence this step opens, if it opens one. -/
  opcode : Option UInt8
  /-- The opcode whose sequence this step belongs to, if there is one. -/
  owner : Option UInt8
  /-- The control bytes of the step. -/
  control : ControlPair
  deriving DecidableEq, Repr

/-- The steps of a microprogram, in the order of execution. -/
abbrev Program := List Step

/-- The address of the two-byte entry at `position`. It wraps around past position 127. -/
def entryAddress (position : Nat) : UInt8 :=
  UInt8.ofNat (2 * position)

end ControlStore
