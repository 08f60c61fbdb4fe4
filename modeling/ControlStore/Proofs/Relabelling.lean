import ControlStore.Proofs.Building
import Mathlib.Logic.Embedding.Basic

/-!
# `ControlStore.Proofs.Relabelling`: only equality of opcodes and control bytes counts

The builder uses opcodes as places in a table, compares owners, and looks control pairs up. It never
asks which byte an opcode or a control pair holds. So when the opcodes of a program are permuted and
its control pairs are replaced one by one by others, the tables are those of the program with the
same replacement in them.

* `Program.relabel f g`: the opcodes and owners are mapped by `f` and the control pairs by `g`.
* `AddressBook.internAll_relabel`, `ofOwners_relabel` and `get_opcodeTable_relabel`: the three parts
  of the builder, each under such a replacement. None of them needs more than that different values
  stay different.
* `build_relabel`: the builder as a whole, as one equation for tables and faults together.

No byte has a meaning of its own here. In particular the bytes 0 and `FF`, which stand for a next
state in the images, are opcodes and control bytes like all others.
-/

set_option autoImplicit false

namespace ControlStore

open Function (Injective)

/-- The step with its opcode and its owner mapped by `f` and its control pair by `g`. -/
def Step.relabel (f : UInt8 → UInt8) (g : ControlPair → ControlPair) (step : Step) : Step :=
  { step with
      opcode := step.opcode.map f
      owner := step.owner.map f
      control := g step.control }

/-- The program with all opcodes and owners mapped by `f` and all control pairs by `g`. -/
def Program.relabel (f : UInt8 → UInt8) (g : ControlPair → ControlPair) (program : Program) :
    Program :=
  program.map (Step.relabel f g)

/-- The book with other pairs at the same addresses. -/
def AddressBook.relabel (g : ControlPair → ControlPair) (book : AddressBook) : AddressBook :=
  ⟨book.entries.map fun entry => (g entry.1, entry.2), book.pairs.map g⟩

/-- The tables with the opcodes permuted by `f` and the control pairs mapped by `g`. -/
def RomSet.relabel (f : Equiv.Perm UInt8) (g : ControlPair → ControlPair) (roms : RomSet) :
    RomSet where
  opcodes := .ofFn fun o => roms.opcodes.get (f.symm o)
  states := roms.states
  controls := roms.controls.map g

/-! ### Control pairs -/

namespace AddressBook

variable {g : ControlPair → ControlPair}

/-- The pairs of a relabelled book are the replaced pairs. -/
@[simp] theorem pairs_relabel (g : ControlPair → ControlPair) (book : AddressBook) :
    (book.relabel g).pairs = book.pairs.map g :=
  rfl

/-- A pair is found where the other one was found. -/
theorem address?_relabel (hg : Injective g) (book : AddressBook) (pair : ControlPair) :
    (book.relabel g).address? (g pair) = book.address? pair := by
  obtain ⟨entries, pairs⟩ := book
  show (entries.map fun entry => (g entry.1, entry.2)).lookup (g pair) = entries.lookup pair
  induction entries with
  | nil => rfl
  | cons entry entries ih =>
    obtain ⟨other, address⟩ := entry
    rw [List.map_cons, List.lookup_cons, List.lookup_cons, ih]
    by_cases hpair : pair = other
    · simp [hpair]
    · have hother : g pair ≠ g other := fun h => hpair (hg h)
      simp [beq_eq_false_iff_ne.mpr hpair, beq_eq_false_iff_ne.mpr hother]

/-- A replaced pair gets the address that the pair itself gets, and is listed at the same place. -/
theorem intern_relabel (hg : Injective g) (book : AddressBook) (pair : ControlPair) :
    (book.relabel g).intern (g pair) =
      ((book.intern pair).1, (book.intern pair).2.relabel g) := by
  simp only [intern, address?_relabel hg]
  cases book.address? pair with
  | some address => rfl
  | none => simp [relabel]

/-- The same addresses are given away, in the same order. -/
theorem internAll_relabel (hg : Injective g) (book : AddressBook) (pairs : List ControlPair) :
    (book.relabel g).internAll (pairs.map g) =
      ((book.internAll pairs).1, (book.internAll pairs).2.relabel g) := by
  induction pairs generalizing book with
  | nil => rfl
  | cons pair pairs ih => simp only [List.map_cons, internAll, intern_relabel hg, ih]

end AddressBook

/-! ### Opcodes and owners -/

section
variable {f : UInt8 → UInt8}

/-- Two owners are compared, and this has the same result for their labels. -/
theorem ofOwners_relabel (hf : Injective f) (owners : List (Option UInt8)) (position : Nat) :
    NextState.ofOwners (owners.map (Option.map f)) position =
      NextState.ofOwners owners position := by
  -- One option is for a step without an owner, the other for a position without a step.
  have hinj : Injective (Option.map (Option.map f)) :=
    Option.map_injective (Option.map_injective hf)
  simp only [NextState.ofOwners, List.length_map, List.getElem?_map, hinj.eq_iff]

namespace Program

variable {g : ControlPair → ControlPair}

/-- The control pairs of the steps are replaced. -/
@[simp] theorem controls_relabel (program : Program) :
    (program.relabel f g).controls = program.controls.map g := by
  simp only [controls, relabel, List.map_map]
  rfl

/-- The owners of the steps are replaced. -/
@[simp] theorem owners_relabel (program : Program) :
    (program.relabel f g).owners = program.owners.map (Option.map f) := by
  simp only [owners, relabel, List.map_map]
  rfl

/-- The number of steps stays the same. -/
@[simp] theorem length_relabel (program : Program) :
    (program.relabel f g).length = program.length :=
  List.length_map _

/-- The label of an opcode has the address of the opcode. -/
theorem get_opcodeTable_relabel (hf : Injective f) (program : Program) (o : UInt8) :
    (program.relabel f g).opcodeTable.get (f o) = program.opcodeTable.get o := by
  have hopcode : ∀ step : Step, (step.relabel f g).opcode = some (f o) ↔ step.opcode = some o := by
    intro step
    exact (Option.map_injective hf).eq_iff' rfl
  -- The last step with the opcode is looked for, and it is the same step on both sides.
  rw [get_opcodeTable, get_opcodeTable, List.findRev?_eq_find?_reverse,
    List.findRev?_eq_find?_reverse, relabel, ← List.map_reverse, List.find?_map, Option.map_map]
  simp only [Function.comp_def, hopcode]
  rfl

end Program

end

/-! ### The builder -/

namespace Program

variable (program : Program) (f : Equiv.Perm UInt8) (g : ControlPair ↪ ControlPair)

/-- Each opcode has the address that the opcode replaced by it had. -/
theorem opcodeTable_relabel :
    (program.relabel f g).opcodeTable = .ofFn fun o => program.opcodeTable.get (f.symm o) := by
  refine ByteTable.ext_get fun o => ?_
  have hget := get_opcodeTable_relabel (g := g) f.injective program (f.symm o)
  rw [Equiv.apply_symm_apply] at hget
  rw [hget, ByteTable.get_ofFn]

/-- The entries of all steps stay as they are, and so does the first fault among them. -/
theorem mapM_ofStep_relabel (addresses : List UInt8) :
    (program.relabel f g).mapM (StateEntry.ofStep addresses (program.relabel f g).owners) =
      program.mapM (StateEntry.ofStep addresses program.owners) := by
  have hentry : StateEntry.ofStep addresses (program.relabel f g).owners =
      StateEntry.ofStep addresses program.owners := by
    funext step
    simp only [StateEntry.ofStep, owners_relabel, ofOwners_relabel f.injective]
  rw [hentry]
  exact mapM_ofStep_map (Step.relabel f g) (fun _ => rfl) program addresses program.owners

/-- Building commutes with a change of labels, for tables and for faults. -/
theorem build_relabel : (program.relabel f g).build = program.build.map (RomSet.relabel f g) := by
  have hbook : AddressBook.empty.internAll (program.relabel f g).controls =
      ((AddressBook.empty.internAll program.controls).1,
        (AddressBook.empty.internAll program.controls).2.relabel g) := by
    rw [controls_relabel]
    exact AddressBook.internAll_relabel g.injective AddressBook.empty program.controls
  rw [build, build, length_relabel]
  split
  · rfl
  · rw [hbook]
    show ((program.relabel f g).mapM (StateEntry.ofStep _ _)).map _ =
      ((program.mapM (StateEntry.ofStep _ _)).map _).map _
    rw [mapM_ofStep_relabel]
    cases program.mapM (StateEntry.ofStep _ program.owners) with
    | error fault => rfl
    | ok states =>
      show Except.ok _ = Except.ok _
      simp only [RomSet.relabel, opcodeTable_relabel, AddressBook.pairs_relabel]

/-- When the opcodes and owners of a program are permuted, and its control pairs are replaced by
others without making two of them equal, the builder meets the same fault as before, or builds
tables with the same states, the replaced control pairs in the same order, and the address of each
opcode at its new value. -/
theorem build_relabel_equivariant :
    (∀ fault, (program.relabel f g).build = .error fault ↔ program.build = .error fault) ∧
    ∀ roms, program.build = .ok roms →
      ∃ roms', (program.relabel f g).build = .ok roms' ∧ roms'.states = roms.states ∧
        roms'.controls = roms.controls.map g ∧
        ∀ o, roms'.opcodes.get (f o) = roms.opcodes.get o := by
  rw [build_relabel]
  constructor
  · intro fault
    cases program.build with
    | error _ => rfl
    | ok _ => exact iff_of_false (fun h => by cases h) fun h => by cases h
  · intro roms hbuild
    -- The fields are rewritten, because `rfl` would go into the 256 cells of the opcode table.
    refine ⟨roms.relabel f g, congrArg (Except.map (RomSet.relabel f g)) hbuild, ?_, ?_, ?_⟩
    · rw [RomSet.relabel]
    · rw [RomSet.relabel]
    · intro o
      rw [RomSet.relabel, ByteTable.get_ofFn, Equiv.symm_apply_apply]

end Program

end ControlStore
