/-!
# `ControlStore.ByteTable`: one cell for each byte value

A `ByteTable α` has 256 cells, addressed by a byte. The address can never be out of range, so
reading is total. The opcode table, the record of opcode lines and the three memory images are
tables of this kind.

What is read from a table after it was made, mapped or written to is left to `simp` (`get_ofFn`,
`get_map`, `get_set_self`, `get_set_ne`), and `ext_get` says that a table is the function that reads
it.
-/

set_option autoImplicit false

namespace ControlStore

/-- A table with one cell for each of the 256 byte values. -/
structure ByteTable (α : Type) where
  /-- The cells, in the order of their addresses. -/
  cells : Vector α 256
  deriving DecidableEq, Repr

namespace ByteTable

variable {α β : Type}

/-- The table that holds `a` at every address. -/
def replicate (a : α) : ByteTable α :=
  ⟨Vector.replicate 256 a⟩

/-- The table that holds `f b` at the address `b`. -/
def ofFn (f : UInt8 → α) : ByteTable α :=
  ⟨Vector.ofFn fun i => f (UInt8.ofNat i.val)⟩

/-- The content of the cell at address `b`. -/
def get (t : ByteTable α) (b : UInt8) : α :=
  have _ : b.toNat < 256 := b.toNat_lt
  t.cells[b.toNat]

/-- The table with the cell at address `b` overwritten by `a`. -/
def set (t : ByteTable α) (b : UInt8) (a : α) : ByteTable α :=
  ⟨t.cells.set b.toNat a b.toNat_lt⟩

/-- The table with `f` applied to every cell. -/
def map (f : α → β) (t : ByteTable α) : ByteTable β :=
  ⟨t.cells.map f⟩

/-- All cells, in the order of their addresses. -/
def toList (t : ByteTable α) : List α :=
  t.cells.toList

/-- The filled cells with their addresses, in ascending order of address. -/
def filled (t : ByteTable (Option α)) : List (UInt8 × α) :=
  (List.range 256).filterMap fun i => (t.get (UInt8.ofNat i)).map (UInt8.ofNat i, ·)

/-- Every cell of a constant table holds the constant. -/
@[simp] theorem get_replicate (a : α) (b : UInt8) : (replicate a).get b = a := by
  simp [replicate, get]

/-- A table made from a function holds its values. -/
@[simp] theorem get_ofFn (f : UInt8 → α) (b : UInt8) : (ofFn f).get b = f b := by
  simp [ofFn, get]

/-- Reading a mapped table is mapping what is read. -/
@[simp] theorem get_map (f : α → β) (t : ByteTable α) (b : UInt8) :
    (t.map f).get b = f (t.get b) := by
  simp [map, get]

/-- Writing and then mapping is mapping and then writing the mapped value. -/
theorem map_set (f : α → β) (t : ByteTable α) (b : UInt8) (a : α) :
    (t.set b a).map f = (t.map f).set b (f a) := by
  simp only [map, set, Vector.map_set]

/-- What is written to a cell is read from it. -/
@[simp] theorem get_set_self (t : ByteTable α) (b : UInt8) (a : α) : (t.set b a).get b = a := by
  simp [set, get]

/-- A write leaves every other cell as it was. -/
@[simp] theorem get_set_ne (t : ByteTable α) {b c : UInt8} (h : b ≠ c) (a : α) :
    (t.set b a).get c = t.get c := by
  have hne : b.toNat ≠ c.toNat := fun e => h (UInt8.toNat_inj.mp e)
  simp [set, get, hne]

/-- Two tables that read the same at every address are the same table. -/
theorem ext_get {t u : ByteTable α} (h : ∀ b, t.get b = u.get b) : t = u := by
  obtain ⟨t⟩ := t
  obtain ⟨u⟩ := u
  congr 1
  ext i hi
  have hb := h (UInt8.ofNat i)
  simpa [get, UInt8.toNat_ofNat', Nat.mod_eq_of_lt hi] using hb

/-- There are 256 cells. -/
@[simp] theorem length_toList (t : ByteTable α) : t.toList.length = 256 :=
  t.cells.length_toList

/-- The list of the cells is addressed like the table. -/
@[simp] theorem getElem?_toList (t : ByteTable α) (b : UInt8) :
    t.toList[b.toNat]? = some (t.get b) := by
  have hb : b.toNat < 256 := b.toNat_lt
  simp [toList, get, hb]

/-- The cells are those at the addresses 0 to 255. -/
theorem toList_eq_map_range (t : ByteTable α) :
    t.toList = (List.range 256).map fun i => t.get (UInt8.ofNat i) := by
  refine List.ext_getElem? fun i => ?_
  rcases Nat.lt_or_ge i 256 with hi | hi
  · have hget := t.getElem?_toList (UInt8.ofNat i)
    rw [UInt8.toNat_ofNat', Nat.mod_eq_of_lt hi] at hget
    rw [hget, List.getElem?_map, List.getElem?_range hi]
    rfl
  · rw [List.getElem?_eq_none (by rw [length_toList]; exact hi),
      List.getElem?_eq_none (by simpa using hi)]

end ByteTable

end ControlStore
