import ControlStore.Proofs.Building
import ControlStore.Proofs.Session

/-!
# `ControlStore.Proofs.SessionTables`: the tables of what a session has read

A session gives each step its own place, whatever became of its sources. So the tables of its
program are within their bounds, and no position is a fault (`session_build_exact`).

`RomSet.Exact` collects what then holds of all bytes in the tables. Every address is twice a place,
with nothing cut off. The byte behind a state is 0, or `FF`, or an even number between them, and it
tells by itself what follows (`NextState.ofByte`). The byte `FF` is that of the third step alone.
-/

set_option autoImplicit false

namespace ControlStore

/-- The state that a byte of the state table stands for. -/
def NextState.ofByte (b : UInt8) : NextState :=
  if b = 0 then .dispatch else if b = 0xFF then .fetchComplete else .continueAt b

/-- The addresses in the tables of a program are exact, and each byte has one meaning. -/
structure RomSet.Exact (roms : RomSet) (program : Program) : Prop where
  /-- There is one state entry for each step. -/
  length_states : roms.states.length = program.length
  /-- There are at most as many control pairs as steps. -/
  length_controls : roms.controls.length ≤ program.length
  /-- The address of a step is twice its place. -/
  place : ∀ i < program.length, (entryAddress i).toNat = 2 * i
  /-- A control address is twice the place of the control pair of the step. -/
  control : ∀ (i : Nat) (entry : StateEntry), roms.states[i]? = some entry →
    ∃ k, entry.controlAddress.toNat = 2 * k ∧ k < roms.controls.length ∧
      roms.controls[k]? = program[i]?.map (·.control)
  /-- The address of an opcode is twice the place of a step with this opcode. -/
  opcode : ∀ (o address : UInt8), roms.opcodes.get o = some address →
    ∃ p, address.toNat = 2 * p ∧ p < program.length ∧
      program[p]?.map (·.opcode) = some (some o)
  /-- The byte behind a state is one of three. -/
  next_byte : ∀ (i : Nat) (entry : StateEntry), roms.states[i]? = some entry →
    entry.next.address = 0 ∨ entry.next.address = 0xFF ∨
      (entry.next.address.toNat = 2 * (i + 1) ∧ 2 ≤ 2 * (i + 1) ∧ 2 * (i + 1) ≤ 254)
  /-- The byte behind a state tells what follows. -/
  next_ofByte : ∀ (i : Nat) (entry : StateEntry), roms.states[i]? = some entry →
    NextState.ofByte entry.next.address = entry.next
  /-- No other state than the third can have the byte `FF` behind it. -/
  fetch_third : ∀ (i : Nat) (entry : StateEntry), roms.states[i]? = some entry →
    entry.next.address = 0xFF → i = 2
  /-- The third state has it exactly when the fourth step is missing or has another owner. -/
  fetch_iff : (∃ entry, roms.states[2]? = some entry ∧ entry.next.address = 0xFF) ↔
    3 ≤ program.length ∧ ∀ third fourth, program[2]? = some third → program[3]? = some fourth →
      fourth.owner ≠ third.owner

/-! ### The byte behind a state -/

namespace Program

variable {program : Program} {p : Nat} {next : NextState}

/-- Within the capacity, the address of a continuation is none of the two bytes that stand for
something else. -/
theorem Continues.address_bounds (hlen : program.length ≤ capacity) (h : program.Continues p) :
    2 ≤ 2 * (p + 1) ∧ 2 * (p + 1) ≤ 254 := by
  have hlt : p + 1 < 128 := h.lt_length.trans_le hlen
  omega

/-- The three kinds of bytes do not overlap. -/
theorem Leads.ofByte_address (hlen : program.length ≤ capacity) (h : program.Leads p next) :
    NextState.ofByte next.address = next := by
  cases h with
  | @continueAt address hcontinues haddress =>
    obtain ⟨hlow, hhigh⟩ := hcontinues.address_bounds hlen
    have hzero : address ≠ 0 := by
      intro heq
      rw [heq] at haddress
      have hnat : 0 = 2 * (p + 1) := haddress
      omega
    have hff : address ≠ 0xFF := by
      intro heq
      rw [heq] at haddress
      have hnat : 255 = 2 * (p + 1) := haddress
      omega
    show NextState.ofByte address = _
    rw [NextState.ofByte, if_neg hzero, if_neg hff]
  | fetchComplete => rfl
  | dispatch => rfl

/-- The byte of a state is 0, FF or the address of the next step. -/
theorem Leads.address_cases (hlen : program.length ≤ capacity) (h : program.Leads p next) :
    next.address = 0 ∨ next.address = 0xFF ∨
      (next.address.toNat = 2 * (p + 1) ∧ 2 ≤ 2 * (p + 1) ∧ 2 * (p + 1) ≤ 254) := by
  cases h with
  | continueAt hcontinues haddress =>
    exact Or.inr (Or.inr ⟨haddress, hcontinues.address_bounds hlen⟩)
  | fetchComplete => exact Or.inr (Or.inl rfl)
  | dispatch => exact Or.inl rfl

/-- The byte `FF` stands behind position 2 alone, and there it is read off the owners. -/
theorem Leads.address_eq_fetchComplete_iff (hlen : program.length ≤ capacity)
    (h : program.Leads p next) : next.address = 0xFF ↔ p = 2 ∧ ¬ program.Continues p := by
  have hbyte := h.ofByte_address hlen
  cases h with
  | continueAt hcontinues haddress =>
    refine iff_of_false (fun hff => ?_) fun hstops => hstops.2 hcontinues
    rw [hff] at hbyte
    cases hbyte
  | fetchComplete hstops hp => exact iff_of_true rfl ⟨hp, hstops⟩
  | dispatch hstops hp => exact iff_of_false (by decide) fun hthird => hp hthird.1

end Program

/-! ### Steps at their own places -/

namespace RomSet

variable {roms : RomSet} {program : Program}

/-- Where each step has its own place, the entry at a place is that of the step there. -/
theorem Tabulates.exists_step (h : roms.Tabulates program) (hplace : program.InPlace) {i : Nat}
    {entry : StateEntry} (hentry : roms.states[i]? = some entry) :
    ∃ step, program[i]? = some step ∧
      entry.controlAddress.toNat = 2 * roms.controls.idxOf step.control ∧
      program.Leads i entry.next := by
  have hi : i < program.length := h.length_states ▸ (List.getElem?_eq_some_iff.mp hentry).1
  have hstep : program[i]? = some program[i] := List.getElem?_eq_getElem hi
  obtain ⟨entry', named, hentry', hnamed, hcontrol, hnext⟩ := h.state i _ hstep
  rw [hplace i _ hstep] at hnamed hnext
  obtain rfl : entry = entry' := Option.some.inj (hentry.symm.trans hentry')
  exact ⟨named, hnamed, hcontrol, hnext⟩

/-- An opcode in the table is that of a step, and its address is twice the place of the step. -/
theorem Tabulates.exists_opcode (h : roms.Tabulates program) (hplace : program.InPlace)
    {o address : UInt8} (hget : roms.opcodes.get o = some address) :
    ∃ p step, program[p]? = some step ∧ step.opcode = some o ∧ address.toNat = 2 * p := by
  have hfound := h.opcode o
  rw [hget, Option.map_some] at hfound
  obtain ⟨step, hstep, haddress⟩ := Option.map_eq_some_iff.mp hfound.symm
  rw [List.findRev?_eq_find?_reverse] at hstep
  have hmem : step ∈ program := List.mem_reverse.mp (List.mem_of_find?_eq_some hstep)
  obtain ⟨p, hp⟩ := List.mem_iff_getElem?.mp hmem
  refine ⟨p, step, hp, by simpa using List.find?_some hstep, ?_⟩
  rw [← haddress, hplace p step hp]

/-- When each step is at its own place, the bytes of the tables are those of the steps. -/
theorem Tabulates.exact (h : roms.Tabulates program) (hlen : program.length ≤ capacity)
    (hplace : program.InPlace) : roms.Exact program where
  length_states := h.length_states
  length_controls := by
    rw [h.controls]
    exact program.length_eraseDups_controls_le
  place i hi := toNat_entryAddress (hi.trans_le hlen)
  control i entry hentry := by
    obtain ⟨step, hstep, hcontrol, -⟩ := h.exists_step hplace hentry
    have hmem : step.control ∈ roms.controls := by
      rw [h.controls, List.mem_eraseDups]
      exact List.mem_map_of_mem (List.mem_of_getElem? hstep)
    have hk : roms.controls.idxOf step.control < roms.controls.length :=
      List.idxOf_lt_length_iff.mpr hmem
    refine ⟨_, hcontrol, hk, ?_⟩
    rw [hstep, Option.map_some, List.getElem?_eq_getElem hk, List.getElem_idxOf]
  opcode o address hget := by
    obtain ⟨p, step, hp, ho, haddress⟩ := h.exists_opcode hplace hget
    refine ⟨p, haddress, (List.getElem?_eq_some_iff.mp hp).1, ?_⟩
    rw [hp, Option.map_some, ho]
  next_byte i entry hentry := by
    obtain ⟨_, -, -, hnext⟩ := h.exists_step hplace hentry
    exact hnext.address_cases hlen
  next_ofByte i entry hentry := by
    obtain ⟨_, -, -, hnext⟩ := h.exists_step hplace hentry
    exact hnext.ofByte_address hlen
  fetch_third i entry hentry hff := by
    obtain ⟨_, -, -, hnext⟩ := h.exists_step hplace hentry
    exact ((hnext.address_eq_fetchComplete_iff hlen).mp hff).1
  fetch_iff := by
    -- Position 2 continues exactly when the fourth step is there with the owner of the third.
    have hcontinues : ¬ program.Continues 2 ↔ ∀ third fourth, program[2]? = some third →
        program[3]? = some fourth → fourth.owner ≠ third.owner := by
      simp only [Program.Continues, not_exists, not_and, ne_eq]
    rw [← hcontinues]
    constructor
    · intro hthird
      obtain ⟨entry, hentry, hff⟩ := hthird
      obtain ⟨step, hstep, -, hnext⟩ := h.exists_step hplace hentry
      have hlt : 2 < program.length := (List.getElem?_eq_some_iff.mp hstep).1
      exact ⟨hlt, ((hnext.address_eq_fetchComplete_iff hlen).mp hff).2⟩
    · intro hstops
      have hlt : 2 < roms.states.length := h.length_states ▸ hstops.1
      have hentry : roms.states[2]? = some roms.states[2] := List.getElem?_eq_getElem hlt
      obtain ⟨_, -, -, hnext⟩ := h.exists_step hplace hentry
      exact ⟨_, hentry, (hnext.address_eq_fetchComplete_iff hlen).mpr ⟨rfl, hstops.2⟩⟩

end RomSet

namespace Reader

/-- After any sources, whatever came of each of them, the program that was read has tables unless it
is too long. No position is a fault, and the bytes in the tables are exact. -/
theorem session_build_exact (sources : List Source) :
    (128 < (session sources).program.length →
      (session sources).program.build =
        .error (.tooManySteps (session sources).program.length 128)) ∧
    ((session sources).program.length ≤ 128 →
      ∃ roms, (session sources).program.build = .ok roms ∧
        roms.Exact (session sources).program) := by
  have hplace : (session sources).program.InPlace := (coherent_session sources).position
  refine ⟨fun hlong => Program.build_of_capacity_lt hlong, fun hlen => ?_⟩
  obtain ⟨roms, hbuild, htables⟩ := Program.exists_tabulates hlen hplace.position_lt
  exact ⟨roms, hbuild, htables.exact hlen hplace⟩

end Reader

end ControlStore
