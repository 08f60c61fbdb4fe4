import ControlStore.Proofs.Building
import ControlStore.Proofs.Stopped

/-!
# `ControlStore.Proofs.Renumbering`: lines under other numbers

A reader keeps line numbers in three places: it counts lines, it records the lines of opcodes, and
each step has the line that it came from. A fault names one or two lines. `Reader.renumber m` and
`SourceFault.renumber m` put `m l` for each line `l` in all these places.

Reading never looks at a line number, except to count and to copy it. So a row is read under other
numbers to the same result under these numbers (`readRow_renumber`), and a line is, when the number
of the line that is read has been agreed on (`readLine_of_nextLine_eq`).

Lines that have been read have numbers up to that of the last one. `LineOutcome.renumber_congr` says
that no other numbers count. The tables hold no line numbers at all (`build_map_renumber`).
-/

set_option autoImplicit false

namespace ControlStore

/-- The step with another line number. -/
def Step.renumber (m : Nat → Nat) (step : Step) : Step :=
  { step with line := m step.line }

/-- The fault with other line numbers. What is wrong, and with which opcode, stays. -/
def SourceFault.renumber (m : Nat → Nat) : SourceFault → SourceFault
  | .badLine line cause => .badLine (m line) cause
  | .duplicateOpcode line opcode firstLine => .duplicateOpcode (m line) opcode (m firstLine)

namespace Reader

/-- The reader with other line numbers. -/
def renumber (m : Nat → Nat) (r : Reader) : Reader where
  line := m r.line
  owner := r.owner
  opcodeLines := r.opcodeLines.map (Option.map m)
  steps := r.steps.map (Step.renumber m)

/-- A reader and its fault, both with other line numbers. -/
def renumberOutcome (m : Nat → Nat) (outcome : Reader × Option SourceFault) :
    Reader × Option SourceFault :=
  (outcome.1.renumber m, outcome.2.map (SourceFault.renumber m))

variable (m : Nat → Nat) (r : Reader)

/-- The steps of a reader under other numbers are its steps under these numbers. -/
@[simp] theorem program_renumber : (r.renumber m).program = r.program.map (Step.renumber m) :=
  Array.toList_map

/-- A reader that has read nothing has no line numbers but that of its start. -/
theorem renumber_empty (h : m 0 = 0) : empty.renumber m = empty := by
  -- Compared cell by cell, because the table would be unfolded into its 256 cells otherwise.
  have htable : (ByteTable.replicate none).map (Option.map m) = .replicate none :=
    ByteTable.ext_get fun o => by
      simp
  show (⟨m 0, none, (ByteTable.replicate none).map (Option.map m), #[].map _⟩ : Reader) = _
  rw [h, htable, Array.map_empty]
  rfl

/-! ### One row and one line -/

/-- Entering an opcode and giving other numbers can be exchanged. -/
theorem enterOpcode_renumber (opcode : Option UInt8) :
    (r.renumber m).enterOpcode opcode = (r.enterOpcode opcode).renumber m := by
  cases opcode with
  | none => rfl
  | some o =>
    show (⟨_, _, (r.opcodeLines.map (Option.map m)).set o ((some r.line).map m), _⟩ : Reader) = _
    rw [← ByteTable.map_set]
    rfl

/-- Adding a step and giving other numbers can be exchanged. -/
theorem addStep_renumber (opcode : Option UInt8) (control : ControlPair) :
    (r.renumber m).addStep opcode control = (r.addStep opcode control).renumber m := by
  simp only [addStep, renumber, Array.map_push, Array.size_map]
  rfl

/-- The record is only asked whether the opcode is in it, and the line found there is passed on. -/
theorem readOpcode_renumber (row : Row) :
    (r.renumber m).readOpcode row = (r.readOpcode row).mapError (SourceFault.renumber m) := by
  unfold readOpcode
  cases row.readOpcode with
  | error cause => rfl
  | ok opcode =>
    cases opcode with
    | none => rfl
    | some o =>
      have hget : (r.renumber m).opcodeLines.get o = (r.opcodeLines.get o).map m :=
        ByteTable.get_map _ _ _
      simp only [hget]
      cases r.opcodeLines.get o with
      | none => rfl
      | some firstLine => rfl

/-- A row is read under other numbers to the same result, under these numbers. -/
theorem readRow_renumber (row : Row) :
    (r.renumber m).readRow row = renumberOutcome m (r.readRow row) := by
  unfold readRow
  rw [readOpcode_renumber]
  cases r.readOpcode row with
  | error fault => rfl
  | ok opcode =>
    -- The control fields are read without the reader, so both sides take the same case.
    cases row.readControl with
    | error cause =>
      show ((r.renumber m).enterOpcode opcode, _) = _
      rw [enterOpcode_renumber]
      rfl
    | ok control =>
      show (((r.renumber m).enterOpcode opcode).addStep opcode control, none) = _
      rw [enterOpcode_renumber, addStep_renumber]
      rfl

variable {m r}

/-- A line is read under other numbers to the same result, when it counts as line `m (r.line + 1)`
for the reader `r'`. -/
theorem readLine_of_nextLine_eq {r' : Reader} (h : r'.nextLine = r.nextLine.renumber m)
    (line : Line) : r'.readLine line = renumberOutcome m (r.readLine line) := by
  cases line with
  | error cause =>
    simp only [readLine, h]
    rfl
  | ok text =>
    simp only [readLine, h]
    cases Row.ofLine? text with
    | error cause => rfl
    | ok row? =>
      cases row? with
      | none => rfl
      | some row => exact readRow_renumber m r.nextLine row

/-- Blank lines are counted and do nothing else. -/
theorem readLines_blank {lines : List Line}
    (h : ∀ line ∈ lines, ∃ text, line = .ok text ∧ Row.Blank text) :
    r.readLines lines = ({ r with line := r.line + lines.length }, none) := by
  induction lines generalizing r with
  | nil => rfl
  | cons line lines ih =>
    obtain ⟨text, rfl, hblank⟩ := h line List.mem_cons_self
    have hread := (lineOutcome_readLine r (.ok text)).eq_of_blank hblank
    rw [readLines, hread]
    show r.nextLine.readLines lines = _
    rw [ih fun other hother => h other (List.mem_cons_of_mem _ hother), List.length_cons,
      Nat.add_comm lines.length 1, ← Nat.add_assoc]
    rfl

/-! ### The numbers that count -/

section
variable {m' : Nat → Nat}

/-- A coherent reader has no line number beyond its own. -/
theorem Coherent.renumber_congr (h : r.Coherent) (hm : ∀ l ≤ r.line, m l = m' l) :
    r.renumber m = r.renumber m' := by
  have htable : r.opcodeLines.map (Option.map m) = r.opcodeLines.map (Option.map m') := by
    refine ByteTable.ext_get fun o => ?_
    simp only [ByteTable.get_map]
    exact Option.map_congr fun k hk => hm k (h.recorded_range o k hk).2
  have hsteps : r.steps.map (Step.renumber m) = r.steps.map (Step.renumber m') := by
    refine Array.map_congr_left fun step hstep => ?_
    have hline := (h.line_range step (Array.mem_toList_iff.mpr hstep)).2
    rw [Step.renumber, Step.renumber, hm _ hline]
  rw [renumber, renumber, hm _ (Nat.le_refl _), htable, hsteps]

/-- A fault and the reader that it leaves have no line number beyond that of the fault. -/
theorem LineOutcome.renumber_congr {left : Reader} {line : Line} {fault : SourceFault}
    (h : LineOutcome r line (left, some fault)) (hr : r.Coherent)
    (hm : ∀ l ≤ fault.line, m l = m' l) :
    left.renumber m = left.renumber m' ∧ fault.renumber m = fault.renumber m' := by
  have hline : left.line = fault.line := h.line_eq.trans h.fault_line.symm
  refine ⟨(hr.of_lineOutcome h).renumber_congr fun l hl => hm l (hline ▸ hl), ?_⟩
  have hself := hm fault.line (Nat.le_refl _)
  cases h with
  | unreadable | fieldCount | badOpcode | badControl =>
    exact congrArg (SourceFault.badLine · _) hself
  | @duplicate _ _ _ _ o firstLine _ _ hget =>
    -- The other line comes from the record of `r`, which has earlier lines only.
    have hfirst : m firstLine = m' firstLine :=
      hm firstLine (Nat.le_succ_of_le (hr.recorded_range o firstLine hget).2)
    exact congrArg₂ (SourceFault.duplicateOpcode · o ·) hself hfirst

/-- A source that stops a new reader stops it with line numbers up to that of the fault. -/
theorem renumberOutcome_congr {source : Source} {left : Reader} {fault : SourceFault}
    (h : empty.read source = (left, some fault)) (hm : ∀ l ≤ fault.line, m l = m' l) :
    renumberOutcome m (left, some fault) = renumberOutcome m' (left, some fault) := by
  -- The reader was coherent in front of the line that stopped it, and one line is left to look at.
  obtain ⟨first, line, later, before, -, hfirst, hstop⟩ := exists_stop_of_readLines h
  have hbefore : before.Coherent := by
    have hkept := readLines_keeps (fun _ _ _ hout hr => hr.of_lineOutcome hout) coherent_empty first
    rwa [hfirst] at hkept
  have hout := lineOutcome_readLine before line
  rw [hstop] at hout
  obtain ⟨hleft, hfault⟩ := hout.renumber_congr hbefore hm
  show (left.renumber m, some (fault.renumber m)) = (left.renumber m', some (fault.renumber m'))
  rw [hleft, hfault]

end

end Reader

/-! ### Tables -/

/-- The tables of a program do not depend on the lines of its steps. -/
theorem Program.build_map_renumber (program : Program) (m : Nat → Nat) :
    Program.build (program.map (Step.renumber m)) = program.build := by
  have hcontrols : Program.controls (program.map (Step.renumber m)) = program.controls := by
    rw [controls, List.map_map]
    rfl
  have howners : Program.owners (program.map (Step.renumber m)) = program.owners := by
    rw [owners, List.map_map]
    rfl
  have hopcodes : Program.opcodeTable (program.map (Step.renumber m)) = program.opcodeTable := by
    rw [opcodeTable, List.foldl_map]
    rfl
  have hentries := mapM_ofStep_map (Step.renumber m) (fun _ => rfl) program
  simp only [build, hcontrols, howners, hopcodes, hentries, List.length_map]

end ControlStore
