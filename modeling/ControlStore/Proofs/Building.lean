import ControlStore.Proofs.Tables

/-!
# `ControlStore.Proofs.Building`: the tables of any program

A program need not come from a source. Its steps can name any positions, and owners and opcodes can
be given to them as one likes. `Program.build` then still follows a few rules, which are stated here
by the steps alone.

* `Program.Leads program p next`: what follows position `p`. Only the owners of the steps listed at
  `p` and behind it have a part in this.
* `RomSet.Tabulates`: what the three tables hold. The control table has each pair once, in the order
  of first use. A state entry is that of the position which its step names, and not of the place
  where the step is listed. An opcode belongs to the last step that carries it.
* `build_outcome`: a program that is too long is refused, whatever its positions are. Any other
  program has tables exactly when all of its positions are below its length.

The numbers in `Leads` and `Tabulates` are natural numbers, so no address in the tables is cut off.
-/

set_option autoImplicit false

namespace ControlStore

namespace Program

/-- The step behind position `p` has the owner of the step at `p`. -/
def Continues (program : Program) (p : Nat) : Prop :=
  ∃ step following, program[p]? = some step ∧ program[p + 1]? = some following ∧
    following.owner = step.owner

/-- The state that follows position `p`. -/
inductive Leads (program : Program) (p : Nat) : NextState → Prop where
  | continueAt {address : UInt8} (h : program.Continues p)
      (haddress : address.toNat = 2 * (p + 1)) : Leads program p (.continueAt address)
  | fetchComplete (h : ¬ program.Continues p) (hp : p = 2) : Leads program p .fetchComplete
  | dispatch (h : ¬ program.Continues p) (hp : p ≠ 2) : Leads program p .dispatch

end Program

/-- The tables hold what the steps of a program say. -/
structure RomSet.Tabulates (roms : RomSet) (program : Program) : Prop where
  /-- The different control pairs are listed in the order of their first use. -/
  controls : roms.controls = program.controls.eraseDups
  /-- There is one state entry for each step. -/
  length_states : roms.states.length = program.length
  /-- The entry of a step is that of the step listed at the position which it names. -/
  state : ∀ (i : Nat) (step : Step), program[i]? = some step →
    ∃ entry named, roms.states[i]? = some entry ∧ program[step.position]? = some named ∧
      entry.controlAddress.toNat = 2 * roms.controls.idxOf named.control ∧
      program.Leads step.position entry.next
  /-- An opcode has the address of the last step that carries it, and none without such a step. -/
  opcode : ∀ o : UInt8, (roms.opcodes.get o).map (·.toNat) =
    (program.findRev? fun step => step.opcode = some o).map (2 * ·.position)

namespace Program

variable {program : Program}

/-- A sequence only continues into a step that there is. -/
theorem Continues.lt_length {p : Nat} (h : program.Continues p) : p + 1 < program.length := by
  obtain ⟨_, _, -, hfollowing, -⟩ := h
  exact (List.getElem?_eq_some_iff.mp hfollowing).1

/-- Comparing the owners at two places is comparing the owners of the steps there. -/
theorem continues_iff {p : Nat} :
    program.Continues p ↔
      p + 1 < program.owners.length ∧ program.owners[p + 1]? = program.owners[p]? := by
  have hlen : program.owners.length = program.length := List.length_map _
  rw [hlen, owners, List.getElem?_map, List.getElem?_map]
  constructor
  · intro h
    refine ⟨h.lt_length, ?_⟩
    obtain ⟨step, following, hstep, hfollowing, howner⟩ := h
    rw [hstep, hfollowing, Option.map_some, Option.map_some, howner]
  · intro h
    obtain ⟨hlt, howners⟩ := h
    have hstep : program[p]? = some program[p] := List.getElem?_eq_getElem (by omega)
    have hfollowing : program[p + 1]? = some program[p + 1] := List.getElem?_eq_getElem hlt
    rw [hstep, hfollowing, Option.map_some, Option.map_some, Option.some.injEq] at howners
    exact ⟨_, _, hstep, hfollowing, howners⟩

/-- Within the capacity, the address behind a position is not cut off. -/
theorem leads_ofOwners (hlen : program.length ≤ capacity) (p : Nat) :
    program.Leads p (.ofOwners program.owners p) := by
  unfold NextState.ofOwners
  split
  · next h =>
    have hcontinues : program.Continues p := continues_iff.mpr h
    exact .continueAt hcontinues (toNat_entryAddress (hcontinues.lt_length.trans_le hlen))
  · next h =>
    have hstops : ¬ program.Continues p := fun hcontinues => h (continues_iff.mp hcontinues)
    split
    · next hfetch => exact .fetchComplete hstops (Nat.succ.inj hfetch)
    · next hfetch => exact .dispatch hstops fun hp => hfetch (congrArg Nat.succ hp)

/-- The entry of a step depends on its position alone, given the addresses and the owners. -/
theorem mapM_ofStep_map (h : Step → Step) (hposition : ∀ step, (h step).position = step.position)
    (program : Program) (addresses : List UInt8) (owners : List (Option UInt8)) :
    (program.map h).mapM (StateEntry.ofStep addresses owners) =
      program.mapM (StateEntry.ofStep addresses owners) := by
  have hentry : StateEntry.ofStep addresses owners ∘ h = StateEntry.ofStep addresses owners := by
    funext step
    simp only [Function.comp_apply, StateEntry.ofStep, hposition]
  rw [List.mapM_map, hentry]

/-- An opcode has the address of the last step that carries it. -/
theorem get_opcodeTable (program : Program) (o : UInt8) :
    program.opcodeTable.get o =
      (program.findRev? fun step => step.opcode = some o).map (entryAddress ·.position) := by
  induction program using List.reverseRecOn with
  | nil => simp [Program.opcodeTable]
  | append_singleton program step ih =>
    rw [List.findRev?_eq_find?_reverse] at ih
    rw [opcodeTable_concat, List.findRev?_eq_find?_reverse, List.reverse_append,
      List.reverse_singleton, List.singleton_append, List.find?_cons]
    cases hopcode : step.opcode with
    | none => simpa using ih
    | some o' =>
      -- The last step has been written last, over whatever stood there.
      by_cases ho : o' = o
      · subst ho
        simp
      · simpa [ho] using ih

/-- Within the capacity, the addresses of the opcodes are not cut off. -/
theorem map_toNat_get_opcodeTable (hpos : ∀ step ∈ program, step.position < capacity) (o : UInt8) :
    (program.opcodeTable.get o).map (·.toNat) =
      (program.findRev? fun step => step.opcode = some o).map (2 * ·.position) := by
  rw [get_opcodeTable, Option.map_map]
  refine Option.map_congr fun step hstep => ?_
  rw [List.findRev?_eq_find?_reverse] at hstep
  have hmem : step ∈ program := List.mem_reverse.mp (List.mem_of_find?_eq_some hstep)
  exact toNat_entryAddress (hpos step hmem)

/-- There are at most as many different control pairs as steps. -/
theorem length_eraseDups_controls_le (program : Program) :
    program.controls.eraseDups.length ≤ program.length := by
  obtain ⟨-, -, hlen, -⟩ :=
    AddressBook.internAll_spec AddressBook.numbered_empty program.controls
  rw [AddressBook.pairs_internAll_empty] at hlen
  simpa [AddressBook.empty, controls] using hlen

/-- The entry of a step has the address of the control pair at the position that it names. -/
theorem controlAddress_entryOf (hlen : program.length ≤ capacity) {step named : Step}
    (hnamed : program[step.position]? = some named) :
    (program.entryOf step).controlAddress.toNat =
      2 * program.controls.eraseDups.idxOf named.control := by
  have hcontrol : program.controls[step.position]? = some named.control := by
    rw [controls, List.getElem?_map, hnamed, Option.map_some]
  have hlt : program.controls.eraseDups.idxOf named.control < capacity := by
    have hmem : named.control ∈ program.controls.eraseDups :=
      List.mem_eraseDups.mpr (List.mem_of_getElem? hcontrol)
    exact (List.idxOf_lt_length_iff.mpr hmem).trans_le
      ((length_eraseDups_controls_le program).trans hlen)
  rw [entryOf, List.getD_eq_getElem?_getD, AddressBook.getElem?_internAll_empty hcontrol,
    Option.getD_some, toNat_entryAddress hlt]

/-- A program within the capacity whose positions are all below its length has tables. -/
theorem exists_tabulates (hlen : program.length ≤ capacity)
    (hpos : ∀ step ∈ program, step.position < program.length) :
    ∃ roms, program.build = .ok roms ∧ roms.Tabulates program := by
  refine ⟨_, build_eq_ok hlen hpos, ?_, ?_, ?_, ?_⟩
  · exact AddressBook.pairs_internAll_empty program.controls
  · exact List.length_map _
  · intro i step hstep
    have hnamed := List.getElem?_eq_getElem (hpos step (List.mem_of_getElem? hstep))
    refine ⟨program.entryOf step, _, ?_, hnamed, ?_, leads_ofOwners hlen step.position⟩
    · rw [List.getElem?_map, hstep, Option.map_some]
    · show _ = 2 * (AddressBook.empty.internAll program.controls).2.pairs.idxOf _
      rw [AddressBook.pairs_internAll_empty]
      exact controlAddress_entryOf hlen hnamed
  · exact map_toNat_get_opcodeTable fun step hstep => (hpos step hstep).trans_le hlen

/-- The length of a program is looked at before its positions are. -/
theorem build_of_capacity_lt (h : capacity < program.length) :
    program.build = .error (.tooManySteps program.length capacity) := by
  rw [Program.build, if_pos h]

end Program

/-- Where some element has a fault, mapping stops with the fault of an element. -/
theorem mapM_eq_error_of_mem {α β ε : Type} {f : α → Except ε β} {l : List α} {a : α} {fault : ε}
    (ha : a ∈ l) (hfault : f a = .error fault) :
    ∃ b ∈ l, ∃ fault, f b = .error fault ∧ l.mapM f = .error fault := by
  induction l with
  | nil => cases ha
  | cons b l ih =>
    rw [List.mapM_cons]
    cases hb : f b with
    | error fault => exact ⟨b, List.mem_cons_self, fault, hb, rfl⟩
    | ok c =>
      have hne : a ≠ b := by
        intro hab
        rw [← hab, hfault] at hb
        cases hb
      obtain ⟨d, hd, fault, hdfault, hmap⟩ := ih (List.mem_of_ne_of_mem hne ha)
      refine ⟨d, List.mem_cons_of_mem b hd, fault, hdfault, ?_⟩
      rw [hmap]
      rfl

namespace Program

variable {program : Program}

/-- The entry of a step has a fault exactly when no step is listed at the position that it names. -/
theorem ofStep_eq_error_iff {step : Step} {fault : ProgramFault} :
    StateEntry.ofStep (AddressBook.empty.internAll program.controls).1 program.owners step =
      .error fault ↔ program.length ≤ step.position ∧ fault = .strayPosition step.position := by
  have hcount := program.length_internAll_controls
  rw [StateEntry.ofStep]
  cases hget : (AddressBook.empty.internAll program.controls).1[step.position]? with
  | none =>
    have hle := hcount ▸ List.getElem?_eq_none_iff.mp hget
    simp [hle, eq_comm]
  | some address =>
    have hlt := hcount ▸ (List.getElem?_eq_some_iff.mp hget).1
    simp [Nat.not_le.mpr hlt]

/-- A position that is not below the length of the program is a fault. -/
theorem exists_strayPosition (hlen : program.length ≤ capacity) {step : Step}
    (hstep : step ∈ program) (hstray : program.length ≤ step.position) :
    ∃ position, program.length ≤ position ∧ program.build = .error (.strayPosition position) := by
  obtain ⟨other, -, fault, hfault, hmap⟩ :=
    mapM_eq_error_of_mem hstep (ofStep_eq_error_iff.mpr ⟨hstray, rfl⟩)
  obtain ⟨hother, rfl⟩ := ofStep_eq_error_iff.mp hfault
  refine ⟨other.position, hother, ?_⟩
  rw [Program.build, if_neg (Nat.not_lt.mpr hlen)]
  show (program.mapM (StateEntry.ofStep _ program.owners)).map _ = _
  rw [hmap]
  rfl

/-- What comes of a program, by its length and by the positions of its steps. -/
theorem build_outcome (program : Program) :
    (128 < program.length → program.build = .error (.tooManySteps program.length 128)) ∧
    (program.length ≤ 128 → (∃ step ∈ program, program.length ≤ step.position) →
      ∃ position, program.length ≤ position ∧
        program.build = .error (.strayPosition position)) ∧
    (program.length ≤ 128 → (∀ step ∈ program, step.position < program.length) →
      ∃ roms, program.build = .ok roms ∧ roms.Tabulates program) := by
  refine ⟨fun h => build_of_capacity_lt h, fun hlen h => ?_, fun hlen h => exists_tabulates hlen h⟩
  obtain ⟨step, hstep, hstray⟩ := h
  exact exists_strayPosition hlen hstep hstray

end Program

end ControlStore
