/-!
# `ControlStore.Hex`: bytes in hexadecimal

Reading takes digits of either case and any number of leading zeros. It works on eight bits from
the first digit on: each further digit multiplies by sixteen and adds, and reading stops at the
first result that does not fit. `readByte` first asks that there be a digit and that all characters
be digits, so a field such as `1FFG` has a bad digit and not too large a value.

Writing gives exactly two digits in upper case (`ofByte`).
-/

set_option autoImplicit false

namespace ControlStore.Hex

/-- The value of one hexadecimal digit, of either case. -/
def digit? (c : Char) : Option UInt8 :=
  if '0' ≤ c ∧ c ≤ '9' then some (UInt8.ofNat (c.toNat - 48))
  else if 'A' ≤ c ∧ c ≤ 'F' then some (UInt8.ofNat (c.toNat - 55))
  else if 'a' ≤ c ∧ c ≤ 'f' then some (UInt8.ofNat (c.toNat - 87))
  else none

/-- The product, if it fits a byte. -/
def mul? (a b : UInt8) : Option UInt8 :=
  if a.toNat * b.toNat < 256 then some (a * b) else none

/-- The sum, if it fits a byte. -/
def add? (a b : UInt8) : Option UInt8 :=
  if a.toNat + b.toNat < 256 then some (a + b) else none

/-- The value `v` with one more digit `d` behind it, if the product and the sum both fit. -/
def append? (v d : UInt8) : Option UInt8 :=
  (mul? v 16).bind fun w => add? w d

/-- Why a field is no byte. -/
inductive Fault where
  /-- The field is empty or has a character that is no hexadecimal digit. -/
  | notHex
  /-- The field is a number above `FF`. -/
  | tooLarge
  deriving DecidableEq, Repr

/-- The byte that a field of hexadecimal digits stands for. -/
def readByte (field : List Char) : Except Fault UInt8 :=
  match field.mapM digit? with
  | none => .error .notHex
  | some [] => .error .notHex
  | some (d :: ds) =>
    match (d :: ds).foldlM append? 0 with
    | none => .error .tooLarge
    | some v => .ok v

/-- The digit of value `n < 16`, in upper case. -/
def upperDigit (n : Nat) : Char :=
  if n < 10 then Char.ofNat (48 + n) else Char.ofNat (55 + n)

/-- The two digits of a byte, in upper case. -/
def ofByte (b : UInt8) : List Char :=
  [upperDigit (b.toNat / 16), upperDigit (b.toNat % 16)]

/-- The two digits of a byte as a piece of text. -/
def byteText (b : UInt8) : String :=
  String.ofList (ofByte b)

end ControlStore.Hex
