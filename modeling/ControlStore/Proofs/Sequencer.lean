import ControlStore.Proofs.Tables
import Mathlib.Order.Bounds.Basic

/-!
# `ControlStore.Proofs.Sequencer`: running the memory images

A sequencer that knows nothing but the images steps through the state table. At each address it
drives two control bytes and then goes where the second byte of the entry leads. It stops at the
bytes 0 and `FF` (`RomSet.Runs`).

`ofSource_ok_reproduces` is the main theorem. A source that compiles gives images on which the run
from an opcode drives the control bytes of the rows of this opcode, in their order and no others
(`RomSet.Reproduces`).

* `LastOfSequence rows p q`: row `q` is the last that belongs together with row `p`.
* `drivenAt_ofRows` and `successor_ofRows` are the single step on the tables of some rows, and
  `runs_ofRows` is the run. Its induction goes from the last row of the sequence back to the first.
-/

set_option autoImplicit false

namespace ControlStore

/-! ### The sequencer -/

namespace RomSet

/-- The control bytes that are driven at an address of the state table. No even address is the
last one, so the sum here wraps around for no address that the tables hold. -/
def drivenAt (roms : RomSet) (address : UInt8) : ControlPair :=
  let control := roms.stateImage.get address
  ⟨roms.controlImage.get control, roms.controlImage.get (control + 1)⟩

/-- The byte that says what follows an address of the state table. -/
def successor (roms : RomSet) (address : UInt8) : UInt8 :=
  roms.stateImage.get (address + 1)

/-- The bytes that end a run. -/
def Stops (b : UInt8) : Prop :=
  b = 0 ∨ b = 0xFF

/-- The run from an address, with what is driven in each of its steps and the byte that ends it. -/
inductive Runs (roms : RomSet) : UInt8 → List ControlPair → UInt8 → Prop where
  | stop {address : UInt8} (h : Stops (roms.successor address)) :
      Runs roms address [roms.drivenAt address] (roms.successor address)
  | move {address last : UInt8} {driven : List ControlPair}
      (h : ¬ Stops (roms.successor address))
      (hrun : Runs roms (roms.successor address) driven last) :
      Runs roms address (roms.drivenAt address :: driven) last

/-- There is at most one run from an address. -/
theorem Runs.unique {roms : RomSet} {address last last' : UInt8} {driven driven' : List ControlPair}
    (h : roms.Runs address driven last) (h' : roms.Runs address driven' last') :
    driven = driven' ∧ last = last' := by
  induction h generalizing driven' last' with
  | stop hstop =>
    cases h' with
    | stop => exact ⟨rfl, rfl⟩
    | move hmove => exact absurd hstop hmove
  | move hmove hrun ih =>
    cases h' with
    | stop hstop => exact absurd hstop hmove
    | move _ hrun' =>
      obtain ⟨rfl, rfl⟩ := ih hrun'
      exact ⟨rfl, rfl⟩

end RomSet

/-! ### Sequences of rows -/

/-- The rows `p` to `q` belong together: all of them behind row `p` have no opcode. -/
def OneSequence (rows : List SourceRow) (p q : Nat) : Prop :=
  p ≤ q ∧ q < rows.length ∧ ∀ i, p < i → i ≤ q → Continuation rows i

/-- Row `q` is the last that belongs together with row `p`. -/
def LastOfSequence (rows : List SourceRow) (p q : Nat) : Prop :=
  IsGreatest {q | OneSequence rows p q} q

/-- The control bytes of the rows `p` to `q`. -/
def controlsFrom (rows : List SourceRow) (p q : Nat) : List ControlPair :=
  ((rows.drop p).take (q - p + 1)).map (·.control)

/-- The byte that ends the run through a sequence whose last row is `q`. The third row ends the
fetch of an instruction. -/
def endOf (q : Nat) : UInt8 :=
  if q = 2 then 0xFF else 0

/-- A row that is not continued is the last of its sequence. -/
theorem lastOfSequence_self {rows : List SourceRow} {p : Nat} (hp : p < rows.length)
    (h : ¬ Continuation rows (p + 1)) : LastOfSequence rows p p := by
  refine ⟨⟨Nat.le_refl p, hp, fun i hi hi' => absurd hi (Nat.not_lt.mpr hi')⟩, ?_⟩
  rintro q ⟨-, -, hq⟩
  by_contra hpq
  exact h (hq (p + 1) (Nat.lt_succ_self p) (Nat.lt_of_not_le hpq))

/-- A row that is continued has the last row of its sequence in common with the next row. -/
theorem LastOfSequence.of_succ {rows : List SourceRow} {p q : Nat}
    (h : Continuation rows (p + 1)) (hq : LastOfSequence rows (p + 1) q) :
    LastOfSequence rows p q := by
  obtain ⟨⟨hle, hlt, hcont⟩, hmax⟩ := hq
  refine ⟨⟨Nat.le_of_succ_le hle, hlt, fun i hi hi' => ?_⟩, ?_⟩
  · rcases Nat.eq_or_lt_of_le (Nat.succ_le_of_lt hi) with rfl | hgt
    · exact h
    · exact hcont i hgt hi'
  · -- A sequence from row `p` that ends behind it is also one from the next row.
    rintro q' ⟨-, hlt', hcont'⟩
    rcases Nat.lt_or_ge p q' with hgt | hge
    · exact hmax ⟨hgt, hlt', fun i hi hi' => hcont' i (Nat.lt_of_succ_lt hi) hi'⟩
    · omega

/-- There is one control pair for each row of a sequence. -/
theorem length_controlsFrom {rows : List SourceRow} {p q : Nat} (h : OneSequence rows p q) :
    (controlsFrom rows p q).length = q - p + 1 := by
  obtain ⟨hle, hlt, -⟩ := h
  simp only [controlsFrom, List.length_map, List.length_take, List.length_drop]
  omega

/-- A single row has its own control pair. -/
theorem controlsFrom_self {rows : List SourceRow} {p : Nat} {row : SourceRow}
    (hrow : rows[p]? = some row) : controlsFrom rows p p = [row.control] := by
  obtain ⟨hp, rfl⟩ := List.getElem?_eq_some_iff.mp hrow
  rw [controlsFrom, List.drop_eq_getElem_cons hp, Nat.sub_self, List.take_succ_cons, List.take_zero]
  rfl

/-- The control pairs of a sequence are that of its first row and those of the rows behind it. -/
theorem controlsFrom_of_lt {rows : List SourceRow} {p q : Nat} {row : SourceRow}
    (hrow : rows[p]? = some row) (hpq : p < q) :
    controlsFrom rows p q = row.control :: controlsFrom rows (p + 1) q := by
  obtain ⟨hp, rfl⟩ := List.getElem?_eq_some_iff.mp hrow
  have hcount : q - p + 1 = q - (p + 1) + 1 + 1 := by omega
  rw [controlsFrom, List.drop_eq_getElem_cons hp, hcount, List.take_succ_cons]
  rfl

/-! ### Running the tables of some rows -/

namespace RomSet

variable {rows : List SourceRow}

/-- The step at the address of a row drives the control bytes of this row. -/
theorem drivenAt_ofRows (hlen : rows.length ≤ capacity) {i : Nat} {row : SourceRow}
    (hrow : rows[i]? = some row) : (ofRows rows).drivenAt (entryAddress i) = row.control := by
  obtain ⟨hfirst, hsecond⟩ := get_controlImage_ofRows hlen hrow
  simp only [drivenAt, hfirst, hsecond]

/-- The state at the address of a row leads to what follows the row. -/
theorem successor_ofRows (hlen : rows.length ≤ capacity) {i : Nat} (hi : i < rows.length) :
    (ofRows rows).successor (entryAddress i) = (nextOf rows i).address := by
  rw [successor, get_stateImage_ofRows_succ (hi.trans_le hlen), if_pos hi]

/-- The address of an entry other than the first does not end a run. -/
theorem not_stops_entryAddress {i : Nat} (hpos : 0 < i) (hi : i < capacity) :
    ¬ Stops (entryAddress i) := by
  rintro (h | h) <;>
  · have hnat := congrArg UInt8.toNat h
    rw [toNat_entryAddress hi] at hnat
    simp only [UInt8.reduceToNat] at hnat
    omega

/-- The run from the address of a row goes through the rows of its sequence that are left. -/
theorem runs_ofRows (hlen : rows.length ≤ capacity) {p : Nat} (hp : p < rows.length) :
    ∃ q, LastOfSequence rows p q ∧
      (ofRows rows).Runs (entryAddress p) (controlsFrom rows p q) (endOf q) := by
  -- On the number of rows from row `p` on.
  induction hrest : rows.length - p generalizing p with
  | zero => omega
  | succ n ih =>
    have hrow : rows[p]? = some rows[p] := List.getElem?_eq_getElem hp
    have hdriven := drivenAt_ofRows hlen hrow
    have hsucc := successor_ofRows hlen hp
    by_cases hcont : Continuation rows (p + 1)
    · -- The sequence goes on: one step, and then the run from the next row.
      have hnext : p + 1 < rows.length := lt_length_of_opcodeAt hcont
      obtain ⟨q, hq, hrun⟩ := ih hnext (by omega)
      rw [nextOf, if_pos hcont] at hsucc
      have hmove : ¬ Stops ((ofRows rows).successor (entryAddress p)) := by
        rw [hsucc]
        exact not_stops_entryAddress (Nat.succ_pos p) (hnext.trans_le hlen)
      refine ⟨q, hq.of_succ hcont, ?_⟩
      rw [controlsFrom_of_lt hrow hq.1.1, ← hdriven]
      exact .move hmove (hsucc ▸ hrun)
    · -- The sequence ends here, with a byte that tells whether this was the fetch.
      have hend : (ofRows rows).successor (entryAddress p) = endOf p := by
        rw [hsucc, nextOf, if_neg hcont, endOf, fetchLength]
        by_cases hthird : p = 2
        · subst hthird
          rfl
        · rw [if_neg (by omega), if_neg hthird]
          rfl
      have hstop : Stops ((ofRows rows).successor (entryAddress p)) := by
        rw [hend, endOf, Stops]
        split <;> simp
      refine ⟨p, lastOfSequence_self hp hcont, ?_⟩
      rw [controlsFrom_self hrow, ← hdriven, ← hend]
      exact .stop hstop

/-- The run from an address drives the control bytes of row `p` and of the rows that belong with
it, one step for each row, and ends with the byte for the last of them. -/
def Replays (roms : RomSet) (rows : List SourceRow) (address : UInt8) (p : Nat) : Prop :=
  ∃ q, LastOfSequence rows p q ∧ (controlsFrom rows p q).length = q - p + 1 ∧
    ∀ driven last, roms.Runs address driven last ↔ driven = controlsFrom rows p q ∧ last = endOf q

/-- Running the images amounts to reading the rows. -/
structure Reproduces (roms : RomSet) (rows : List SourceRow) : Prop where
  /-- The run of an opcode goes through the rows of this opcode. -/
  opcode : ∀ p o, opcodeAt rows p = some (some o) →
    roms.Replays rows (roms.opcodeImage.get o) p
  /-- The run from address 0 goes through the leading rows, with or without an opcode. -/
  start : 0 < rows.length → roms.Replays rows 0 0
  /-- An opcode that no row has leads to address 0. -/
  unused : ∀ o, (∀ p, opcodeAt rows p ≠ some (some o)) → roms.opcodeImage.get o = 0
  /-- No run from an even address goes on for ever, whether there is a row for it or not. -/
  halts : ∀ address : UInt8, address.toNat % 2 = 0 →
    ∃ driven last, roms.Runs address driven last ∧ driven.length ≤ 128

/-- From the address of a row, the images play the rest of its sequence and stop. -/
theorem replays_ofRows (hlen : rows.length ≤ capacity) {p : Nat} (hp : p < rows.length) :
    (ofRows rows).Replays rows (entryAddress p) p := by
  obtain ⟨q, hq, hrun⟩ := runs_ofRows hlen hp
  refine ⟨q, hq, length_controlsFrom hq.1, fun driven last => ⟨fun h => h.unique hrun, ?_⟩⟩
  rintro ⟨rfl, rfl⟩
  exact hrun

/-- A run ends within one step for each row, and at once where there is no row. -/
theorem halts_ofRows (hlen : rows.length ≤ capacity) {i : Nat} (hi : i < capacity) :
    ∃ driven last, (ofRows rows).Runs (entryAddress i) driven last ∧ driven.length ≤ capacity := by
  rcases Nat.lt_or_ge i rows.length with hlt | hge
  · obtain ⟨q, ⟨hq, -⟩, hrun⟩ := runs_ofRows hlen hlt
    refine ⟨_, _, hrun, ?_⟩
    rw [length_controlsFrom hq]
    have hqlt := hq.2.1
    omega
  · -- The image is filled up with 0, which ends the run.
    have hzero : (ofRows rows).successor (entryAddress i) = 0 := by
      rw [successor, get_stateImage_ofRows_succ hi, if_neg (Nat.not_lt.mpr hge)]
    refine ⟨_, _, .stop (Or.inl hzero), ?_⟩
    exact Nat.succ_le_of_lt (Nat.zero_lt_of_lt hi)

/-- The images of at most 128 rows with different opcodes play each of their sequences. -/
theorem reproduces_ofRows (hdistinct : DistinctOpcodes rows) (hlen : rows.length ≤ capacity) :
    (ofRows rows).Reproduces rows where
  opcode p o hp := by
    rw [get_opcodeImage_ofRows hdistinct hp]
    exact replays_ofRows hlen (lt_length_of_opcodeAt hp)
  start hpos := replays_ofRows hlen hpos
  unused o h := get_opcodeImage_ofRows_eq_zero h
  halts address heven := by
    have haddress : address = entryAddress (address.toNat / 2) := by
      have hlt := address.toNat_lt
      rw [← UInt8.toNat_inj, toNat_entryAddress (by simp only [capacity]; omega)]
      omega
    rw [haddress]
    exact halts_ofRows hlen (by have hlt := address.toNat_lt; simp only [capacity]; omega)

/-- Running the images of a source reproduces its rows. From the address of an opcode, the control
bytes of the row with this opcode and of the rows up to the next opcode are driven in their order,
and the run ends with `FF` behind the third row of the source and with 0 behind any other row. The
same holds of the leading rows and address 0. -/
theorem ofSource_ok_reproduces (source : Source) (roms : RomSet)
    (h : (Compilation.ofSource source).result = .ok roms) :
    ∃ rows, LinesSpell source.lines rows ∧
      (Compilation.ofSource source).program = stepsOf rows ∧ roms.Reproduces rows := by
  obtain ⟨rows, hspell, hdistinct, hlen, hprogram, rfl⟩ := Compilation.exists_rows_of_ok h
  exact ⟨rows, hspell, hprogram, reproduces_ofRows hdistinct hlen⟩

/-- Three lines that fetch and one for the opcode 5: `⇥A⇥1`, `⇥B⇥2`, `⇥a⇥01` and `5⇥B⇥2`. -/
def fetchThenFive : Source where
  bytes := [9, 65, 9, 49, 10, 9, 66, 9, 50, 10, 9, 97, 9, 48, 49, 10, 53, 9, 66, 9, 50, 10]

/-- The images play the fetch sequence from address 0 and that of opcode 5 from its entry. -/
theorem fetchThenFive_reproduced : ∃ roms, (Compilation.ofSource fetchThenFive).result = .ok roms ∧
    ∃ rows, LinesSpell fetchThenFive.lines rows ∧
      (Compilation.ofSource fetchThenFive).program = stepsOf rows ∧ roms.Reproduces rows := by
  obtain ⟨roms, h⟩ : ∃ roms, (Compilation.ofSource fetchThenFive).result = .ok roms :=
    Compilation.exists_ok_of_isSome (by decide +kernel)
  exact ⟨roms, h, ofSource_ok_reproduces fetchThenFive roms h⟩

end RomSet

end ControlStore
