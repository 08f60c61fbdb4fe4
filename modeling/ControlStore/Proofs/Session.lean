import ControlStore.Proofs.LineOutcome
import Mathlib.Order.Bounds.Basic
import Mathlib.Order.Interval.Set.Defs

/-!
# `ControlStore.Proofs.Session`: a reader that is given many sources

A reader lives on from one source to the next, also when a source stopped it. `Reader.session` is
the reader after any sources, with any data and with or without a failure of the stream. The
beginning of a session is a session, so what holds of all sessions holds after each source.

`Reader.Coherent` says how line numbers, owner, record of opcodes and steps fit together. Counting
a line, entering an opcode and adding a step each keep it (`Coherent.nextLine`,
`Coherent.enterOpcode`, `Coherent.addStep`). All outcomes of a line are made of these three, so
every line keeps it, and so does every source and every session. A fault in a control field leaves
an opcode entered that no step carries. The record then has a line without a step, which
`Coherent` admits: owners are told by the record, and not by the steps.

`Sequenced` says how the steps lie in a program: the steps of one owner are together, those without
an owner come first, and an opcode stands only on the first step of its owner. It follows from
`Coherent` alone (`Coherent.sequenced`).
-/

set_option autoImplicit false

namespace ControlStore

/-- The lines of a class that are recorded for some opcode. -/
def recordedIn (table : ByteTable (Option Nat)) (lines : Set Nat) : Set Nat :=
  {k | k ∈ lines ∧ ∃ o, table.get o = some k}

/-- The opcode has the greatest line of all that are recorded within a class of lines. Without an
opcode, no line of the class is recorded. -/
def LastOpened (table : ByteTable (Option Nat)) (lines : Set Nat) : Option UInt8 → Prop
  | none => recordedIn table lines = ∅
  | some o => ∃ k, table.get o = some k ∧ IsGreatest (recordedIn table lines) k

/-- How the steps of a program follow each other. -/
structure Sequenced (program : Program) : Prop where
  /-- Between two steps of the same owner, all steps have that owner. -/
  contiguous : ∀ (i j k : Nat) (a b c : Step), i ≤ j → j ≤ k → program[i]? = some a →
    program[j]? = some b → program[k]? = some c → a.owner = c.owner → b.owner = a.owner
  /-- Before a step without an owner, no step has an owner. -/
  unowned_first : ∀ (i j : Nat) (a b : Step), i ≤ j → program[i]? = some a →
    program[j]? = some b → b.owner = none → a.owner = none
  /-- A step behind another one of the same owner has no opcode. -/
  opcode_first : ∀ (i j : Nat) (a b : Step), i < j → program[i]? = some a →
    program[j]? = some b → a.owner = b.owner → b.opcode = none
  /-- No opcode stands on two steps. -/
  opcode_unique : ∀ (i j : Nat) (a b : Step) (o : UInt8), program[i]? = some a →
    program[j]? = some b → a.opcode = some o → b.opcode = some o → i = j

namespace Reader

/-- How the parts of a reader fit together. -/
structure Coherent (r : Reader) : Prop where
  /-- Each step has its own place. -/
  position : ∀ (i : Nat) (step : Step), r.program[i]? = some step → step.position = i
  /-- Each step is on a later line than the one before it. -/
  increasing : r.program.Pairwise fun a b => a.line < b.line
  /-- The lines of the steps have been counted. -/
  line_range : ∀ step ∈ r.program, 1 ≤ step.line ∧ step.line ≤ r.line
  /-- The recorded lines have been counted. -/
  recorded_range : ∀ o k, r.opcodeLines.get o = some k → 1 ≤ k ∧ k ≤ r.line
  /-- No line is recorded for two opcodes. -/
  recorded_inj : ∀ o o' k, r.opcodeLines.get o = some k → r.opcodeLines.get o' = some k → o = o'
  /-- A step with an opcode is owned by it, and its line is recorded for it. -/
  opcode : ∀ step ∈ r.program, ∀ o, step.opcode = some o →
    step.owner = some o ∧ r.opcodeLines.get o = some step.line
  /-- A step is owned by the last opcode recorded up to its line. -/
  owner : ∀ step ∈ r.program, LastOpened r.opcodeLines (Set.Iic step.line) step.owner
  /-- The next row is owned by the last opcode recorded at all. -/
  current : LastOpened r.opcodeLines Set.univ r.owner

/-- The current line has been counted, but nothing has been entered for it. -/
structure AtNewLine (r : Reader) : Prop where
  pos : 1 ≤ r.line
  steps : ∀ step ∈ r.program, step.line < r.line
  opcodes : ∀ o k, r.opcodeLines.get o = some k → k < r.line

/-- The reader after some sources more, one after another. A fault drops the rest of its own
source. -/
def readAll (r : Reader) (sources : List Source) : Reader :=
  sources.foldl (fun r source => (r.read source).1) r

/-- A session is what a new reader reads. -/
def session (sources : List Source) : Reader :=
  empty.readAll sources

/-- What every outcome of a line keeps is kept by any sources. -/
theorem readAll_keeps {P : Reader → Prop}
    (hline : ∀ r line outcome, LineOutcome r line outcome → P r → P outcome.1) {r : Reader}
    (h : P r) (sources : List Source) : P (r.readAll sources) := by
  induction sources generalizing r with
  | nil => exact h
  | cons source sources ih => exact ih (readLines_keeps hline h source.lines)

end Reader

/-! ### The last opcode of a class of lines -/

section
variable {table : ByteTable (Option Nat)} {lines : Set Nat} {w w' : Option UInt8}

/-- The last opcode of a class depends only on the lines that are recorded in it. -/
theorem LastOpened.congr {lines' : Set Nat} (h : LastOpened table lines w)
    (heq : recordedIn table lines = recordedIn table lines') : LastOpened table lines' w := by
  cases w with
  | none => exact heq.symm.trans h
  | some o =>
    obtain ⟨k, hk, hgreatest⟩ := h
    exact ⟨k, hk, heq ▸ hgreatest⟩

/-- An entry for a line outside of a class does not show in the class. -/
theorem recordedIn_set_of_not_mem {o : UInt8} {k : Nat} (hfresh : table.get o = none)
    (hk : k ∉ lines) : recordedIn (table.set o (some k)) lines = recordedIn table lines := by
  ext j
  have hiff : j ∈ lines → ∀ o', (table.set o (some k)).get o' = some j ↔ table.get o' = some j := by
    intro hj o'
    by_cases ho : o = o'
    · subst ho
      have hkj : k ≠ j := fun h => hk (h ▸ hj)
      simp [hfresh, hkj]
    · simp [ho]
  show (j ∈ lines ∧ _) ↔ (j ∈ lines ∧ _)
  exact and_congr_right fun hj => exists_congr (hiff hj)

/-- A new opcode on a line outside of a class leaves the last opcode of the class as it was. -/
theorem LastOpened.set_of_not_mem {o : UInt8} {k : Nat} (h : LastOpened table lines w)
    (hfresh : table.get o = none) (hk : k ∉ lines) :
    LastOpened (table.set o (some k)) lines w := by
  cases w with
  | none => exact (recordedIn_set_of_not_mem hfresh hk).trans h
  | some o' =>
    obtain ⟨j, hj, hgreatest⟩ := h
    have ho : o ≠ o' := by
      intro heq
      rw [← heq, hfresh] at hj
      cases hj
    refine ⟨j, by simp [ho, hj], ?_⟩
    rw [recordedIn_set_of_not_mem hfresh hk]
    exact hgreatest

/-- An opcode that is entered for a line behind all others is the last one. -/
theorem lastOpened_set_self {o : UInt8} {k : Nat} (hk : k ∈ lines)
    (hlast : ∀ o' j, table.get o' = some j → j < k) :
    LastOpened (table.set o (some k)) lines (some o) := by
  have hget : (table.set o (some k)).get o = some k := by simp
  refine ⟨k, hget, ⟨hk, o, hget⟩, ?_⟩
  intro j hj
  obtain ⟨-, o', hj⟩ := hj
  by_cases ho : o = o'
  · subst ho
    exact le_of_eq (Option.some.inj (hj.symm.trans hget))
  · rw [ByteTable.get_set_ne table ho] at hj
    exact le_of_lt (hlast o' j hj)

/-- There is no last opcode exactly when no line of the class is recorded. -/
theorem LastOpened.eq_none_iff (h : LastOpened table lines w) :
    w = none ↔ recordedIn table lines = ∅ := by
  cases w with
  | none => exact iff_of_true rfl h
  | some o =>
    obtain ⟨k, -, hk, -⟩ := h
    refine iff_of_false (by simp) ?_
    exact Set.Nonempty.ne_empty ⟨k, hk⟩

/-- Where no line is recorded twice, the last opcode is unique. -/
theorem LastOpened.unique
    (hinj : ∀ o o' k, table.get o = some k → table.get o' = some k → o = o')
    (h : LastOpened table lines w) (h' : LastOpened table lines w') : w = w' := by
  cases w with
  | none => exact ((h'.eq_none_iff).mpr h).symm
  | some o =>
    cases w' with
    | none => exact (h.eq_none_iff).mpr h'
    | some o' =>
      obtain ⟨k, hk, hgreatest⟩ := h
      obtain ⟨k', hk', hgreatest'⟩ := h'
      rw [hgreatest'.unique hgreatest] at hk'
      rw [hinj o o' k hk hk']

/-- An opcode that is the last one up to two lines is the last one up to each line between them. -/
theorem LastOpened.between {a b c : Nat} (ha : LastOpened table (Set.Iic a) w)
    (hc : LastOpened table (Set.Iic c) w) (hab : a ≤ b) (hbc : b ≤ c) :
    LastOpened table (Set.Iic b) w := by
  have hsub : recordedIn table (Set.Iic b) ⊆ recordedIn table (Set.Iic c) :=
    fun k hk => ⟨le_trans hk.1 hbc, hk.2⟩
  cases w with
  | none => exact Set.subset_eq_empty hsub hc
  | some o =>
    obtain ⟨k, hk, hmem, -⟩ := ha
    obtain ⟨k', hk', -, hupper⟩ := hc
    obtain rfl : k = k' := Option.some.inj (hk.symm.trans hk')
    exact ⟨k, hk, ⟨le_trans hmem.1 hab, hmem.2⟩, fun j hj => hupper (hsub hj)⟩

end

namespace Reader

variable {r : Reader}

/-! ### The three ways in which a reader changes -/

/-- A reader that has read nothing is coherent. -/
theorem coherent_empty : empty.Coherent where
  position i step h := by cases h
  increasing := List.Pairwise.nil
  line_range step h := by cases h
  recorded_range o k h := by
    simp [empty] at h
  recorded_inj o o' k h := by
    simp [empty] at h
  opcode step h := by cases h
  owner step h := by cases h
  current := by
    refine Set.eq_empty_of_forall_notMem fun k hk => ?_
    obtain ⟨-, o, ho⟩ := hk
    simp [empty] at ho

/-- Counting a line keeps a reader coherent. -/
theorem Coherent.nextLine (h : r.Coherent) : r.nextLine.Coherent where
  position := h.position
  increasing := h.increasing
  line_range step hstep := by
    obtain ⟨hpos, hle⟩ := h.line_range step hstep
    exact ⟨hpos, Nat.le_succ_of_le hle⟩
  recorded_range o k hk := by
    obtain ⟨hpos, hle⟩ := h.recorded_range o k hk
    exact ⟨hpos, Nat.le_succ_of_le hle⟩
  recorded_inj := h.recorded_inj
  opcode := h.opcode
  owner := h.owner
  current := h.current

/-- When a line has just been counted, all steps and opcodes are on lines before it. -/
theorem Coherent.atNewLine_nextLine (h : r.Coherent) : r.nextLine.AtNewLine where
  pos := Nat.succ_pos r.line
  steps step hstep := Nat.lt_succ_of_le (h.line_range step hstep).2
  opcodes o k hk := Nat.lt_succ_of_le (h.recorded_range o k hk).2

/-- A new opcode is recorded for a line behind all others. So the owners of earlier steps are still
the last opcodes up to their lines. -/
theorem Coherent.enterOpcode (h : r.Coherent) (hline : r.AtNewLine) {opcode : Option UInt8}
    (hfresh : r.Fresh opcode) : (r.enterOpcode opcode).Coherent := by
  cases opcode with
  | none => exact h
  | some o =>
    have hnone : r.opcodeLines.get o = none := hfresh o rfl
    -- What the table held before, it still holds, and the only further entry is that of `o`.
    have hget : ∀ o' k, (r.opcodeLines.set o (some r.line)).get o' = some k ↔
        (o' = o ∧ k = r.line) ∨ r.opcodeLines.get o' = some k := by
      intro o' k
      by_cases ho : o = o'
      · subst ho
        simp [hnone, eq_comm]
      · simp [ho, Ne.symm ho]
    refine ⟨h.position, h.increasing, h.line_range, ?_, ?_, ?_, ?_, ?_⟩
    · intro o' k hk
      rcases (hget o' k).mp hk with ⟨-, rfl⟩ | hk
      · exact ⟨hline.pos, le_rfl⟩
      · exact h.recorded_range o' k hk
    · intro o₁ o₂ k h₁ h₂
      rcases (hget o₁ k).mp h₁ with ⟨ho₁, hk⟩ | hold₁
      · rcases (hget o₂ k).mp h₂ with ⟨ho₂, -⟩ | hold₂
        · rw [ho₁, ho₂]
        · exact absurd hk (Nat.ne_of_lt (hline.opcodes o₂ k hold₂))
      · rcases (hget o₂ k).mp h₂ with ⟨-, hk⟩ | hold₂
        · exact absurd hk (Nat.ne_of_lt (hline.opcodes o₁ k hold₁))
        · exact h.recorded_inj o₁ o₂ k hold₁ hold₂
    · intro step hstep o' ho'
      obtain ⟨howner, hrecorded⟩ := h.opcode step hstep o' ho'
      exact ⟨howner, (hget o' step.line).mpr (Or.inr hrecorded)⟩
    · intro step hstep
      have hbehind : r.line ∉ Set.Iic step.line := not_le.mpr (hline.steps step hstep)
      exact (h.owner step hstep).set_of_not_mem hnone hbehind
    · exact lastOpened_set_self (Set.mem_univ r.line) hline.opcodes

/-- A step is added at the end, with its place, the current line and the current owner. -/
theorem program_addStep (r : Reader) (opcode : Option UInt8) (control : ControlPair) :
    (r.addStep opcode control).program =
      r.program ++ [⟨r.program.length, r.line, opcode, r.owner, control⟩] := by
  simp [program, Reader.addStep]

/-- Up to its current line, the reader has recorded all that it has recorded. -/
theorem Coherent.lastOpened_line (h : r.Coherent) :
    LastOpened r.opcodeLines (Set.Iic r.line) r.owner := by
  refine h.current.congr ?_
  ext k
  refine and_congr_left fun hk => iff_of_true (Set.mem_univ k) ?_
  obtain ⟨o, ho⟩ := hk
  exact (h.recorded_range o k ho).2

/-- A step is added for a line behind those of all others. -/
theorem Coherent.addStep (h : r.Coherent) (hpos : 1 ≤ r.line)
    (hlines : ∀ step ∈ r.program, step.line < r.line) {opcode : Option UInt8}
    (hopcode : ∀ o, opcode = some o → r.owner = some o ∧ r.opcodeLines.get o = some r.line)
    (control : ControlPair) : (r.addStep opcode control).Coherent := by
  -- Only the list of steps changes, so each field asks about the steps before and the one added.
  have hmem : ∀ step, step ∈ (r.addStep opcode control).program ↔
      step ∈ r.program ∨ step = ⟨r.program.length, r.line, opcode, r.owner, control⟩ := by
    intro step
    rw [program_addStep, List.mem_append, List.mem_singleton]
  refine ⟨?_, ?_, ?_, h.recorded_range, h.recorded_inj, ?_, ?_, h.current⟩
  · intro i step hstep
    rw [program_addStep, List.getElem?_append] at hstep
    split at hstep
    · exact h.position i step hstep
    · rw [List.getElem?_singleton] at hstep
      split at hstep
      · cases hstep
        show r.program.length = i
        omega
      · cases hstep
  · rw [program_addStep, List.pairwise_append]
    refine ⟨h.increasing, List.pairwise_singleton _ _, ?_⟩
    intro a ha b hb
    rw [List.mem_singleton.mp hb]
    exact hlines a ha
  · intro step hstep
    rcases (hmem step).mp hstep with hstep | rfl
    · exact h.line_range step hstep
    · exact ⟨hpos, le_rfl⟩
  · intro step hstep o ho
    rcases (hmem step).mp hstep with hstep | rfl
    · exact h.opcode step hstep o ho
    · exact hopcode o ho
  · intro step hstep
    rcases (hmem step).mp hstep with hstep | rfl
    · exact h.owner step hstep
    · exact h.lastOpened_line

/-- An opcode that is entered owns what follows, and is recorded for the current line. -/
theorem enterOpcode_some (r : Reader) {opcode : Option UInt8} {o : UInt8} (h : opcode = some o) :
    (r.enterOpcode opcode).owner = some o ∧
      (r.enterOpcode opcode).opcodeLines.get o = some (r.enterOpcode opcode).line := by
  subst h
  exact ⟨rfl, by simp [enterOpcode]⟩

/-! ### Lines, sources and sessions -/

/-- Every way to take a line keeps the reader coherent, with a fault or without one. -/
theorem Coherent.of_lineOutcome (h : r.Coherent) {line : Line}
    {outcome : Reader × Option SourceFault} (hout : LineOutcome r line outcome) :
    outcome.1.Coherent := by
  have hentered : ∀ opcode, r.Fresh opcode → (r.nextLine.enterOpcode opcode).Coherent :=
    fun opcode hfresh => h.nextLine.enterOpcode h.atNewLine_nextLine hfresh
  cases hout with
  | unreadable | blank | fieldCount | badOpcode | duplicate => exact h.nextLine
  | badControl _ _ _ hfresh => exact hentered _ hfresh
  | @step text o c _ hfresh =>
    have hprogram : (r.nextLine.enterOpcode o).program = r.nextLine.program :=
      congrArg Array.toList (steps_enterOpcode r.nextLine o)
    refine (hentered o hfresh).addStep ?_ ?_ (fun _ ho => enterOpcode_some r.nextLine ho) c
    · simpa using h.atNewLine_nextLine.pos
    · simpa [hprogram] using h.atNewLine_nextLine.steps

/-- The reader of every session is coherent. -/
theorem coherent_session (sources : List Source) : (session sources).Coherent :=
  readAll_keeps (fun _ _ _ hout h => h.of_lineOutcome hout) coherent_empty sources

/-! ### How the steps lie -/

/-- Steps are on later lines exactly when they come later. -/
theorem Coherent.line_lt (h : r.Coherent) {i j : Nat} {a b : Step} (hij : i < j)
    (ha : r.program[i]? = some a) (hb : r.program[j]? = some b) : a.line < b.line := by
  obtain ⟨hi, rfl⟩ := List.getElem?_eq_some_iff.mp ha
  obtain ⟨hj, rfl⟩ := List.getElem?_eq_some_iff.mp hb
  exact List.pairwise_iff_getElem.mp h.increasing i j hi hj hij

/-- Steps are on the same line or on a later one when they come at the same place or later. -/
theorem Coherent.line_le (h : r.Coherent) {i j : Nat} {a b : Step} (hij : i ≤ j)
    (ha : r.program[i]? = some a) (hb : r.program[j]? = some b) : a.line ≤ b.line := by
  rcases Nat.lt_or_eq_of_le hij with hlt | rfl
  · exact le_of_lt (h.line_lt hlt ha hb)
  · rw [Option.some.inj (ha.symm.trans hb)]

/-- The record tells the owners, and what is the last opcode up to two lines is so up to all lines
between them. -/
theorem Coherent.sequenced (h : r.Coherent) : Sequenced r.program where
  contiguous i j k a b c hij hjk ha hb hc hac := by
    have howner := h.owner b (List.mem_of_getElem? hb)
    have hfirst := h.owner a (List.mem_of_getElem? ha)
    have hlast := h.owner c (List.mem_of_getElem? hc)
    rw [← hac] at hlast
    exact howner.unique h.recorded_inj
      (hfirst.between hlast (h.line_le hij ha hb) (h.line_le hjk hb hc))
  unowned_first i j a b hij ha hb hnone := by
    have hlast := h.owner b (List.mem_of_getElem? hb)
    rw [hnone] at hlast
    refine ((h.owner a (List.mem_of_getElem? ha)).eq_none_iff).mpr ?_
    refine Set.subset_eq_empty ?_ hlast
    exact fun k hk => ⟨le_trans hk.1 (h.line_le hij ha hb), hk.2⟩
  opcode_first i j a b hij ha hb hab := by
    cases ho : b.opcode with
    | none => rfl
    | some o =>
      obtain ⟨howner, hrecorded⟩ := h.opcode b (List.mem_of_getElem? hb) o ho
      have hfirst := h.owner a (List.mem_of_getElem? ha)
      rw [hab, howner] at hfirst
      -- The opcode is recorded for the line of `b`, which is behind that of `a`.
      obtain ⟨k, hk, hmem, -⟩ := hfirst
      obtain rfl : k = b.line := Option.some.inj (hk.symm.trans hrecorded)
      exact absurd (h.line_lt hij ha hb) (not_lt.mpr hmem.1)
  opcode_unique i j a b o ha hb hao hbo := by
    have hline : a.line = b.line := Option.some.inj
      ((h.opcode a (List.mem_of_getElem? ha) o hao).2.symm.trans
        (h.opcode b (List.mem_of_getElem? hb) o hbo).2)
    rcases Nat.lt_trichotomy i j with hlt | heq | hgt
    · exact absurd (h.line_lt hlt ha hb) (by omega)
    · exact heq
    · exact absurd (h.line_lt hgt hb ha) (by omega)

/-- After any sources, whatever came of each of them, the parts of the reader fit together, there
is an owner unless no opcode is recorded, and the steps of each owner are together. -/
theorem session_coherent_and_sequenced (sources : List Source) :
    (session sources).Coherent ∧
    ((session sources).owner = none ↔ ∀ o, (session sources).opcodeLines.get o = none) ∧
    Sequenced (session sources).program := by
  have h := coherent_session sources
  refine ⟨h, ?_, h.sequenced⟩
  rw [h.current.eq_none_iff, Set.eq_empty_iff_forall_notMem]
  constructor
  · intro hempty o
    cases ho : (session sources).opcodeLines.get o with
    | none => rfl
    | some k => exact absurd ⟨Set.mem_univ k, o, ho⟩ (hempty k)
  · intro hnone k hk
    obtain ⟨-, o, ho⟩ := hk
    rw [hnone o] at ho
    cases ho

end Reader

end ControlStore
