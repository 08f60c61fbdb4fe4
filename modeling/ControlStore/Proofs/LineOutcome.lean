import ControlStore.Proofs.Grammar
import ControlStore.Reader

/-!
# `ControlStore.Proofs.LineOutcome`: everything that one line can do to a reader

`Reader.LineOutcome r line outcome` lists the seven ways in which a line is taken, each with the
form of the line that leads to it, in terms of the grammar. `lineOutcome_readLine` says that
`Reader.readLine` always ends in one of them. Facts about a reader are proved from this list, case
by case, and do not look into the reading functions again.

The order of the checks shows in the cases. A repeated opcode is reported whatever the control
fields hold, and an opcode stays entered when the control fields are at fault.
-/

set_option autoImplicit false

namespace ControlStore

namespace Row

/-! ### A line determines its row -/

/-- A line has its three fields in one way only. -/
theorem HasFields.unique {text f₀ f₁ f₂ g₀ g₁ g₂ : List Char} (h : HasFields text f₀ f₁ f₂)
    (h' : HasFields text g₀ g₁ g₂) : f₀ = g₀ ∧ f₁ = g₁ ∧ f₂ = g₂ := by
  have heq : [f₀, f₁, f₂] = [g₀, g₁, g₂] := (hasFields_iff.mp h).symm.trans (hasFields_iff.mp h')
  simpa using heq

/-- There is no tab in any field of a line. -/
theorem HasFields.tab_not_mem {text f₀ f₁ f₂ : List Char} (h : HasFields text f₀ f₁ f₂) :
    '\t' ∉ f₀ ∧ '\t' ∉ f₁ ∧ '\t' ∉ f₂ := by
  obtain ⟨h₀, -, -, h₁, -, -, h₂, -⟩ := h
  exact ⟨h₀, h₁.1, h₂.1⟩

/-- A field stands for one byte at most. -/
theorem ByteField.unique {f : List Char} {v w : UInt8} (h : ByteField f v) (h' : ByteField f w) :
    v = w := by
  have hv := (byteField_iff h.tab_not_mem).mp h
  have hw := (byteField_iff h.tab_not_mem).mp h'
  exact Except.ok.inj (hv.symm.trans hw)

/-- A first field stands for one opcode, or for none. -/
theorem OpcodeField.unique {f : List Char} {o o' : Option UInt8} (h : OpcodeField f o)
    (h' : OpcodeField f o') : o = o' := by
  have ho := (opcodeField_iff h.tab_not_mem [] []).mp h
  have ho' := (opcodeField_iff h.tab_not_mem [] []).mp h'
  exact Except.ok.inj (ho.symm.trans ho')

/-- A first field has an opcode exactly when it stands for a byte. -/
@[simp] theorem opcodeField_some_iff {f : List Char} {v : UInt8} :
    OpcodeField f (some v) ↔ ByteField f v := by
  refine ⟨fun h => ?_, .byte⟩
  cases h with
  | byte h => exact h

/-- A line with a field that stands for a byte is not blank. -/
theorem HasFields.not_blank {text f₀ f₁ f₂ : List Char} (h : HasFields text f₀ f₁ f₂) {v : UInt8}
    (hbyte : ByteField f₀ v ∨ ByteField f₁ v ∨ ByteField f₂ v) : ¬ Blank text := by
  intro hblank
  obtain ⟨-⟩ := h
  rcases hbyte with hf | hf | hf
  all_goals exact hf.not_blank fun c hc => hblank c (by simp [hc])

/-- The text of a row is not blank. -/
theorem Spells.not_blank {text : List Char} {o : Option UInt8} {c : ControlPair}
    (h : Spells text o c) : ¬ Blank text := by
  obtain ⟨f₀, f₁, f₂, hfields, -, hfirst, -⟩ := spells_iff.mp h
  exact hfields.not_blank (Or.inr (Or.inl hfirst))

/-- A text spells one row at most. -/
theorem Spells.unique {text : List Char} {o o' : Option UInt8} {c c' : ControlPair}
    (h : Spells text o c) (h' : Spells text o' c') : o = o' ∧ c = c' := by
  obtain ⟨f₀, f₁, f₂, hfields, ho, hfirst, hsecond⟩ := spells_iff.mp h
  obtain ⟨g₀, g₁, g₂, hfields', ho', hfirst', hsecond'⟩ := spells_iff.mp h'
  obtain ⟨rfl, rfl, rfl⟩ := hfields.unique hfields'
  cases c
  cases c'
  exact ⟨ho.unique ho', congrArg₂ ControlPair.mk (hfirst.unique hfirst') (hsecond.unique hsecond')⟩

end Row

namespace Reader

/-- The opcode is none, or has not opened a sequence yet. -/
def Fresh (r : Reader) (opcode : Option UInt8) : Prop :=
  ∀ b ∈ opcode, r.opcodeLines.get b = none

/-- What reading a line can come to: the reader afterwards, and the fault if there is one. -/
inductive LineOutcome (r : Reader) : Line → Reader × Option SourceFault → Prop where
  /-- The line could not be read. -/
  | unreadable (cause : ReadFault) :
      LineOutcome r (.error cause) (r.nextLine, some (.badLine (r.line + 1) (.unreadable cause)))
  /-- A blank line is only counted. -/
  | blank {text : List Char} (h : Row.Blank text) : LineOutcome r (.ok text) (r.nextLine, none)
  /-- The line has another number of fields than three. -/
  | fieldCount {text : List Char} (hblank : ¬ Row.Blank text)
      (h : ∀ f₀ f₁ f₂, ¬ Row.HasFields text f₀ f₁ f₂) (cause : LineFault) :
      LineOutcome r (.ok text) (r.nextLine, some (.badLine (r.line + 1) cause))
  /-- The first field is no opcode. -/
  | badOpcode {text f₀ f₁ f₂ : List Char} (hblank : ¬ Row.Blank text)
      (h : Row.HasFields text f₀ f₁ f₂) (hbad : ∀ o, ¬ Row.OpcodeField f₀ o) (cause : LineFault) :
      LineOutcome r (.ok text) (r.nextLine, some (.badLine (r.line + 1) cause))
  /-- The opcode already opened a sequence. -/
  | duplicate {text f₀ f₁ f₂ : List Char} {b : UInt8} {firstLine : Nat}
      (h : Row.HasFields text f₀ f₁ f₂) (hb : Row.ByteField f₀ b)
      (hline : r.opcodeLines.get b = some firstLine) :
      LineOutcome r (.ok text)
        (r.nextLine, some (.duplicateOpcode (r.line + 1) b firstLine))
  /-- The opcode is entered, but a control field is no byte. -/
  | badControl {text f₀ f₁ f₂ : List Char} {o : Option UInt8} (hblank : ¬ Row.Blank text)
      (h : Row.HasFields text f₀ f₁ f₂) (ho : Row.OpcodeField f₀ o) (hfresh : r.Fresh o)
      (hbad : ∀ a b, ¬ (Row.ByteField f₁ a ∧ Row.ByteField f₂ b)) (cause : LineFault) :
      LineOutcome r (.ok text)
        (r.nextLine.enterOpcode o, some (.badLine (r.line + 1) cause))
  /-- The line is a row, and its step is added. -/
  | step {text : List Char} {o : Option UInt8} {c : ControlPair} (h : Row.Spells text o c)
      (hfresh : r.Fresh o) :
      LineOutcome r (.ok text) ((r.nextLine.enterOpcode o).addStep o c, none)

/-- Behind a first field that is in order, a row is at fault in its control fields or adds a
step. -/
theorem lineOutcome_readControl (r : Reader) {text f₀ f₁ f₂ : List Char}
    (hblank : ¬ Row.Blank text) (h : Row.HasFields text f₀ f₁ f₂) {o : Option UInt8}
    (ho : Row.OpcodeField f₀ o) (hfresh : r.Fresh o) :
    LineOutcome r (.ok text)
      (match Row.readControl ⟨Text.trim f₀, Text.trim f₁, Text.trim f₂⟩ with
        | .error cause => (r.nextLine.enterOpcode o, some (.badLine r.nextLine.line cause))
        | .ok control => ((r.nextLine.enterOpcode o).addStep o control, none)) := by
  obtain ⟨-, h₁, h₂⟩ := h.tab_not_mem
  cases hread : Row.readControl ⟨Text.trim f₀, Text.trim f₁, Text.trim f₂⟩ with
  | error cause =>
    refine .badControl hblank h ho hfresh (fun a b hab => ?_) cause
    have hok : Row.readControl ⟨Text.trim f₀, Text.trim f₁, Text.trim f₂⟩ = .ok ⟨a, b⟩ :=
      Row.readControl_eq_ok_iff.mpr
        ⟨(Row.byteField_iff h₁).mp hab.1, (Row.byteField_iff h₂).mp hab.2⟩
    cases hread.symm.trans hok
  | ok control =>
    obtain ⟨hfirst, hsecond⟩ := Row.readControl_eq_ok_iff.mp hread
    refine .step (Row.spells_iff.mpr ⟨f₀, f₁, f₂, h, ho, ?_, ?_⟩) hfresh
    · exact (Row.byteField_iff h₁).mpr hfirst
    · exact (Row.byteField_iff h₂).mpr hsecond

/-- The row of a line with three fields is taken in one of the last four ways. -/
theorem lineOutcome_readRow (r : Reader) {text f₀ f₁ f₂ : List Char} (hblank : ¬ Row.Blank text)
    (h : Row.HasFields text f₀ f₁ f₂) :
    LineOutcome r (.ok text)
      (r.nextLine.readRow ⟨Text.trim f₀, Text.trim f₁, Text.trim f₂⟩) := by
  have h₀ := h.tab_not_mem.1
  unfold readRow readOpcode
  cases hopcode : Row.readOpcode ⟨Text.trim f₀, Text.trim f₁, Text.trim f₂⟩ with
  | error cause =>
    refine .badOpcode hblank h (fun o ho => ?_) cause
    cases hopcode.symm.trans ((Row.opcodeField_iff h₀ _ _).mp ho)
  | ok o =>
    have ho := (Row.opcodeField_iff h₀ _ _).mpr hopcode
    cases o with
    -- Without an opcode there is nothing to look up in the record.
    | none => exact lineOutcome_readControl r hblank h ho (by simp [Fresh])
    | some b =>
      cases hline : r.opcodeLines.get b with
      | none =>
        simp only [nextLine, hline]
        exact lineOutcome_readControl r hblank h ho (by simpa [Fresh] using hline)
      | some firstLine =>
        simp only [nextLine, hline]
        exact .duplicate h (Row.opcodeField_some_iff.mp ho) hline

/-- Reading a line comes to one of the listed outcomes. -/
theorem lineOutcome_readLine (r : Reader) (line : Line) : LineOutcome r line (r.readLine line) := by
  cases line with
  | error cause => exact .unreadable cause
  | ok text =>
    cases hrow : Row.ofLine? text with
    | error cause =>
      simp only [readLine, hrow]
      -- A blank line is no fault, and a line with three fields is none either.
      have hblank : ¬ Row.Blank text := by
        intro hblank
        cases hrow.symm.trans (Row.ofLine?_eq_none_iff.mpr hblank)
      refine .fieldCount hblank (fun f₀ f₁ f₂ h => ?_) cause
      cases hrow.symm.trans (Row.ofLine?_eq_some_iff.mpr ⟨hblank, f₀, f₁, f₂, h, rfl⟩)
    | ok row? =>
      simp only [readLine, hrow]
      cases row? with
      | none => exact .blank (Row.ofLine?_eq_none_iff.mp hrow)
      | some row =>
        obtain ⟨hblank, f₀, f₁, f₂, h, rfl⟩ := Row.ofLine?_eq_some_iff.mp hrow
        exact lineOutcome_readRow r hblank h

/-- What every outcome of a line keeps is kept by any lines, with a fault or without one. -/
theorem readLines_keeps {P : Reader → Prop}
    (hline : ∀ r line outcome, LineOutcome r line outcome → P r → P outcome.1) {r : Reader}
    (h : P r) (lines : List Line) : P (r.readLines lines).1 := by
  induction lines generalizing r with
  | nil => exact h
  | cons line lines ih =>
    have hkept : P (r.readLine line).1 := hline r line _ (lineOutcome_readLine r line) h
    rw [readLines]
    split
    · next r' hread =>
      rw [hread] at hkept
      exact ih hkept
    · next r' fault hread =>
      rw [hread] at hkept
      exact hkept

/-! ### The form of a line decides the outcome -/

/-- A blank line is only counted. -/
theorem LineOutcome.eq_of_blank {r : Reader} {text : List Char}
    {outcome : Reader × Option SourceFault} (h : LineOutcome r (.ok text) outcome)
    (hblank : Row.Blank text) : outcome = (r.nextLine, none) := by
  cases h with
  | blank _ => rfl
  | fieldCount hnot | badOpcode hnot | badControl hnot => exact absurd hblank hnot
  | duplicate hfields hb _ => exact absurd hblank (hfields.not_blank (Or.inl hb))
  | step hspells _ => exact absurd hblank hspells.not_blank

/-- A row with a new opcode, or without one, adds its step. -/
theorem LineOutcome.eq_of_spells {r : Reader} {text : List Char}
    {outcome : Reader × Option SourceFault} (h : LineOutcome r (.ok text) outcome)
    {o : Option UInt8} {c : ControlPair} (hspells : Row.Spells text o c) (hfresh : r.Fresh o) :
    outcome = ((r.nextLine.enterOpcode o).addStep o c, none) := by
  obtain ⟨f₀, f₁, f₂, hfields, ho, hfirst, hsecond⟩ := Row.spells_iff.mp hspells
  cases h with
  | blank hblank => exact absurd hblank hspells.not_blank
  | fieldCount _ hnone => exact absurd hfields (hnone f₀ f₁ f₂)
  | badOpcode _ hfields' hbad =>
    obtain ⟨rfl, -, -⟩ := hfields.unique hfields'
    exact absurd ho (hbad o)
  | duplicate hfields' hb hline =>
    obtain ⟨rfl, -, -⟩ := hfields.unique hfields'
    obtain rfl := ho.unique (.byte hb)
    cases hline.symm.trans (hfresh _ rfl)
  | badControl _ hfields' _ _ hbad =>
    obtain ⟨-, rfl, rfl⟩ := hfields.unique hfields'
    exact absurd ⟨hfirst, hsecond⟩ (hbad _ _)
  | step hspells' _ =>
    obtain ⟨rfl, rfl⟩ := hspells.unique hspells'
    rfl

/-- The lines that are taken without a fault, and the reader they leave. -/
theorem readLine_eq_none_iff {r r' : Reader} {line : Line} :
    r.readLine line = (r', none) ↔
      (∃ text, line = .ok text ∧ Row.Blank text ∧ r' = r.nextLine) ∨
      ∃ text o c, line = .ok text ∧ Row.Spells text o c ∧ r.Fresh o ∧
        r' = (r.nextLine.enterOpcode o).addStep o c := by
  have hout := lineOutcome_readLine r line
  constructor
  · intro h
    rw [h] at hout
    cases hout with
    | blank hblank => exact Or.inl ⟨_, rfl, hblank, rfl⟩
    | step hspells hfresh => exact Or.inr ⟨_, _, _, rfl, hspells, hfresh, rfl⟩
  · rintro (⟨text, rfl, hblank, rfl⟩ | ⟨text, o, c, rfl, hspells, hfresh, rfl⟩)
    · exact hout.eq_of_blank hblank
    · exact hout.eq_of_spells hspells hfresh

end Reader

end ControlStore
