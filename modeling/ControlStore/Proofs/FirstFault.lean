import ControlStore.Proofs.Reading
import ControlStore.Proofs.SourceLines
import Mathlib.Order.Bounds.Defs

/-!
# `ControlStore.Proofs.FirstFault`: the line that is reported

A line is bad (`BadLine`) when it is no text, when it is neither blank nor a row, or when it has an
opcode that an earlier row has. Whether a line is bad depends only on the lines up to it.

`read_empty_reports_first_bad` says that a new reader stops at the first bad line, if there is one,
and what it reports there (`Reports`): a repeated opcode with the line of its row, whatever the
control fields hold, and in all other cases just a bad line. What follows the newline of that line
has no influence on the fault or on the reader that is left.

The induction runs along the lines before the first bad one. They spell rows, so the reader stands
as `Reader.ofRows` says when it comes to the bad line, and `taken_or_reports` looks at all outcomes
of that single line.
-/

set_option autoImplicit false

namespace ControlStore

/-- Line number `k`, counted from one. -/
def lineAt (lines : List Line) : Nat → Option Line
  | 0 => none
  | k + 1 => lines[k]?

namespace Row

/-- The text has three fields, and the first stands for the byte `b`. -/
def HasOpcode (text : List Char) (b : UInt8) : Prop :=
  ∃ f₀ f₁ f₂, HasFields text f₀ f₁ f₂ ∧ ByteField f₀ b

/-- The text has another number of fields than three, or a field that is not in order. -/
def Malformed (text : List Char) : Prop :=
  ¬ ∃ f₀ f₁ f₂, HasFields text f₀ f₁ f₂ ∧ (∃ o, OpcodeField f₀ o) ∧
    (∃ a, ByteField f₁ a) ∧ ∃ b, ByteField f₂ b

/-- A text is malformed exactly when it is the row of no opcode and no control bytes. -/
theorem malformed_iff {text : List Char} : Malformed text ↔ ∀ o c, ¬ Spells text o c := by
  simp only [Malformed, spells_iff, not_exists]
  constructor
  · rintro h o c f₀ f₁ f₂ ⟨hfields, ho, hfirst, hsecond⟩
    exact h f₀ f₁ f₂ ⟨hfields, ⟨o, ho⟩, ⟨_, hfirst⟩, ⟨_, hsecond⟩⟩
  · rintro h f₀ f₁ f₂ ⟨hfields, ⟨o, ho⟩, ⟨a, ha⟩, ⟨b, hb⟩⟩
    exact h o ⟨a, b⟩ f₀ f₁ f₂ ⟨hfields, ho, ha, hb⟩

/-- The opcode of a line stands in the first of its fields, however these are named. -/
theorem HasOpcode.byteField {text f₀ f₁ f₂ : List Char} {b : UInt8} (h : HasOpcode text b)
    (hfields : HasFields text f₀ f₁ f₂) : ByteField f₀ b := by
  obtain ⟨g₀, g₁, g₂, hfields', hb⟩ := h
  obtain ⟨rfl, -, -⟩ := hfields.unique hfields'
  exact hb

/-- A line with an opcode is not blank. -/
theorem HasOpcode.not_blank {text : List Char} {b : UInt8} (h : HasOpcode text b) :
    ¬ Blank text := by
  obtain ⟨f₀, f₁, f₂, hfields, hb⟩ := h
  exact hfields.not_blank (Or.inl hb)

end Row

/-- Line `k` holds a row with the opcode `b`. -/
def OpensAt (lines : List Line) (k : Nat) (b : UInt8) : Prop :=
  ∃ text control, lineAt lines k = some (.ok text) ∧ Row.Spells text (some b) control

/-- Line `k` has three fields with the opcode `b` in front, and the earlier line `j` holds a row
with that opcode. -/
def RepeatsAt (lines : List Line) (k : Nat) (b : UInt8) (j : Nat) : Prop :=
  (∃ text, lineAt lines k = some (.ok text) ∧ Row.HasOpcode text b) ∧ j < k ∧ OpensAt lines j b

/-- Line `k` cannot be read, or is neither blank nor a row, or has an opcode for a second time. -/
inductive BadLine (lines : List Line) (k : Nat) : Prop where
  | unreadable {cause : ReadFault} (h : lineAt lines k = some (.error cause))
  | malformed {text : List Char} (h : lineAt lines k = some (.ok text))
      (hblank : ¬ Row.Blank text) (hbad : Row.Malformed text)
  | repeated {b : UInt8} {j : Nat} (h : RepeatsAt lines k b j)

/-- The fault names line `k`. It names an opcode `b` and an earlier line `j` exactly when line `k`
repeats the opcode `b` of line `j`, which is then the only such line. -/
structure Reports (lines : List Line) (k : Nat) (fault : SourceFault) : Prop where
  line_eq : fault.line = k
  duplicate_iff : ∀ b j, fault = .duplicateOpcode k b j ↔ RepeatsAt lines k b j
  badLine : (∀ b j, ¬ RepeatsAt lines k b j) → ∃ cause, fault = .badLine k cause

/-! ### Lines and rows -/

/-- Line `k` is the same among the first `m` lines, if it is one of them. -/
theorem lineAt_take_of_le {lines : List Line} {k m : Nat} (h : k ≤ m) :
    lineAt (lines.take m) k = lineAt lines k := by
  cases k with
  | zero => rfl
  | succ k => exact List.getElem?_take_of_lt (by omega)

/-- Lines are numbered from one, so the number of the last line is the count of all. -/
@[simp] theorem lineAt_concat_length (lines : List Line) (line : Line) :
    lineAt (lines ++ [line]) (lines.length + 1) = some line := by
  simp [lineAt]

/-- A further line does not change what the other numbers stand for. -/
theorem lineAt_concat_of_ne {lines : List Line} {line : Line} {k : Nat}
    (h : k ≠ lines.length + 1) : lineAt (lines ++ [line]) k = lineAt lines k := by
  cases k with
  | zero => rfl
  | succ k =>
    simp only [lineAt, List.getElem?_append]
    split
    · rfl
    · rw [List.getElem?_eq_none (by simp; omega), List.getElem?_eq_none (by omega)]

/-- There is no line behind the last one. -/
theorem lineAt_eq_none_of_lt {lines : List Line} {k : Nat} (h : lines.length < k) :
    lineAt lines k = none := by
  cases k with
  | zero => rfl
  | succ k => exact List.getElem?_eq_none (by omega)

/-- An opcode is opened on a line before the last one, or by the row on the last line. -/
theorem opensAt_concat_iff {lines : List Line} {line : Line} {k : Nat} {b : UInt8} :
    OpensAt (lines ++ [line]) k b ↔
      OpensAt lines k b ∨
        (k = lines.length + 1 ∧ ∃ text control, line = .ok text ∧
          Row.Spells text (some b) control) := by
  by_cases hk : k = lines.length + 1
  · subst hk
    have hnone : ¬ OpensAt lines (lines.length + 1) b := by
      rintro ⟨text, control, hline, -⟩
      rw [lineAt_eq_none_of_lt (Nat.lt_succ_self _)] at hline
      cases hline
    rw [or_iff_right hnone, OpensAt, lineAt_concat_length]
    simp
  · rw [OpensAt, lineAt_concat_of_ne hk, OpensAt, or_iff_left fun h => hk h.1]

/-- The rows with an opcode stand on the lines that open its sequence. -/
theorem LinesSpell.opensAt_iff {lines : List Line} {rows : List SourceRow}
    (h : LinesSpell lines rows) {k : Nat} {b : UInt8} :
    OpensAt lines k b ↔ ∃ row ∈ rows, row.line = k ∧ row.opcode = some b := by
  induction h with
  | nil =>
    have hnone : lineAt [] k = none := by cases k <;> rfl
    simp [OpensAt, hnone]
  | blank h htext ih =>
    rw [opensAt_concat_iff, ← ih, or_iff_left]
    rintro ⟨-, text, control, hline, hspells⟩
    cases hline
    exact hspells.not_blank htext
  | @row lines rows text opcode control h htext ih =>
    have hlast : (∃ text' control', (Except.ok text : Line) = .ok text' ∧
        Row.Spells text' (some b) control') ↔ opcode = some b := by
      constructor
      · rintro ⟨_, control', ⟨⟩, hspells⟩
        exact (htext.unique hspells).1
      · rintro rfl
        exact ⟨text, control, rfl, htext⟩
    rw [opensAt_concat_iff, ih, hlast]
    simp only [List.mem_append, List.mem_singleton, or_and_right, exists_or, exists_eq_left]
    rw [eq_comm]

/-! ### One line -/

namespace Reader

/-- The record of opcodes holds the lines before line `m + 1` that open a sequence. -/
theorem opcodeLines_ofRows_eq_some_iff {lines : List Line} {m : Nat} {rows : List SourceRow}
    (hspell : LinesSpell (lines.take m) rows) (hdistinct : DistinctOpcodes rows) {b : UInt8}
    {j : Nat} :
    (ofRows m rows).opcodeLines.get b = some j ↔ j < m + 1 ∧ OpensAt lines j b := by
  rw [ofRows, ByteTable.get_ofFn, openingLine_eq_some_iff hdistinct, ← hspell.opensAt_iff]
  constructor
  · intro hopens
    have hj : j < m + 1 := by
      obtain ⟨text, control, hline, -⟩ := hopens
      by_contra hge
      rw [lineAt_eq_none_of_lt (by rw [List.length_take]; omega)] at hline
      cases hline
    refine ⟨hj, ?_⟩
    rwa [OpensAt, lineAt_take_of_le (by omega)] at hopens
  · rintro ⟨hj, hopens⟩
    rwa [OpensAt, lineAt_take_of_le (by omega)]

/-- A bad line that repeats no opcode is reported as such. -/
theorem reports_badLine {lines : List Line} {k : Nat} (h : ∀ b j, ¬ RepeatsAt lines k b j)
    (cause : LineFault) : Reports lines k (.badLine k cause) where
  line_eq := rfl
  duplicate_iff b j := ⟨fun heq => (by cases heq), fun hrepeats => absurd hrepeats (h b j)⟩
  badLine _ := ⟨cause, rfl⟩

section
variable {lines : List Line} {m : Nat} {line : Line} {rows : List SourceRow}

/-- A line repeats the opcodes that the reader has entered before it comes to that line. -/
theorem repeatsAt_iff (hline : lineAt lines (m + 1) = some line)
    (hspell : LinesSpell (lines.take m) rows) (hdistinct : DistinctOpcodes rows) {b : UInt8}
    {j : Nat} :
    RepeatsAt lines (m + 1) b j ↔
      (∃ text, line = .ok text ∧ Row.HasOpcode text b) ∧
        (ofRows m rows).opcodeLines.get b = some j := by
  rw [RepeatsAt, opcodeLines_ofRows_eq_some_iff hspell hdistinct, hline]
  simp only [Option.some.injEq]

/-- A blank line is not bad, and neither is a row without an opcode that was entered before. -/
theorem not_badLine {text : List Char} (hline : lineAt lines (m + 1) = some (.ok text))
    (hspell : LinesSpell (lines.take m) rows) (hdistinct : DistinctOpcodes rows)
    (hform : Row.Blank text ∨ ∃ o c, Row.Spells text o c ∧ (ofRows m rows).Fresh o) :
    ¬ BadLine lines (m + 1) := by
  intro hbad
  cases hbad with
  | unreadable h => cases hline.symm.trans h
  | malformed h hblank hmal =>
    cases hline.symm.trans h
    rcases hform with hform | ⟨o, c, hform, -⟩
    · exact hblank hform
    · exact Row.malformed_iff.mp hmal o c hform
  | repeated h =>
    obtain ⟨⟨_, ⟨⟩, hopcode⟩, hget⟩ := (repeatsAt_iff hline hspell hdistinct).mp h
    rcases hform with hform | ⟨o, c, hform, hfresh⟩
    · exact hopcode.not_blank hform
    · obtain ⟨f₀, f₁, f₂, hfields, ho, -, -⟩ := Row.spells_iff.mp hform
      obtain rfl := ho.unique (.byte (hopcode.byteField hfields))
      cases hget.symm.trans (hfresh _ rfl)

/-- Behind lines that spell rows, the next line is in order, and the rows go on, or it is bad and
is reported. -/
theorem taken_or_reports (hline : lineAt lines (m + 1) = some line)
    (hspell : LinesSpell (lines.take m) rows) (hdistinct : DistinctOpcodes rows) :
    (¬ BadLine lines (m + 1) ∧
      ∃ rows', LinesSpell (lines.take (m + 1)) rows' ∧ DistinctOpcodes rows') ∨
    (BadLine lines (m + 1) ∧
      ∃ r fault, (ofRows m rows).readLine line = (r, some fault) ∧
        Reports lines (m + 1) fault) := by
  have hget : lines[m]? = some line := hline
  have htake : lines.take (m + 1) = lines.take m ++ [line] := by
    rw [List.take_add_one, hget, Option.toList_some]
  have hrepeats := @repeatsAt_iff lines m line rows hline hspell hdistinct
  have hout := lineOutcome_readLine (ofRows m rows) line
  generalize (ofRows m rows).readLine line = outcome at hout ⊢
  -- Two outcomes go on. Of the others, only `duplicate` is about an opcode that was entered before,
  -- and the rest have to be told apart from it.
  cases hout with
  | unreadable cause =>
    refine Or.inr ⟨.unreadable hline, _, _, rfl, reports_badLine (fun b j h => ?_) _⟩
    obtain ⟨⟨_, ⟨⟩, -⟩, -⟩ := hrepeats.mp h
  | blank hblank =>
    refine Or.inl ⟨not_badLine hline hspell hdistinct (Or.inl hblank), rows, ?_, hdistinct⟩
    rw [htake]
    exact .blank hspell hblank
  | @fieldCount text hblank hnone cause =>
    have hmal : Row.Malformed text := by
      rintro ⟨f₀, f₁, f₂, hfields, -⟩
      exact hnone f₀ f₁ f₂ hfields
    refine Or.inr ⟨.malformed hline hblank hmal, _, _, rfl, reports_badLine (fun b j h => ?_) _⟩
    obtain ⟨⟨_, ⟨⟩, f₀, f₁, f₂, hfields, -⟩, -⟩ := hrepeats.mp h
    exact hnone f₀ f₁ f₂ hfields
  | @badOpcode text _ _ _ hblank hfields hbad cause =>
    have hmal : Row.Malformed text := by
      rintro ⟨g₀, g₁, g₂, hfields', ⟨o, ho⟩, -⟩
      obtain ⟨rfl, -, -⟩ := hfields.unique hfields'
      exact hbad o ho
    refine Or.inr ⟨.malformed hline hblank hmal, _, _, rfl, reports_badLine (fun b j h => ?_) _⟩
    obtain ⟨⟨_, ⟨⟩, hopcode⟩, -⟩ := hrepeats.mp h
    exact hbad (some b) (.byte (hopcode.byteField hfields))
  | @duplicate text f₀ f₁ f₂ b j hfields hb hentered =>
    have hopcode : Row.HasOpcode text b := ⟨f₀, f₁, f₂, hfields, hb⟩
    have hrepeated : RepeatsAt lines (m + 1) b j := hrepeats.mpr ⟨⟨text, rfl, hopcode⟩, hentered⟩
    refine Or.inr ⟨.repeated hrepeated, _, _, rfl, ⟨rfl, fun b' j' => ⟨?_, ?_⟩, ?_⟩⟩
    · intro heq
      obtain ⟨-, rfl, rfl⟩ := SourceFault.duplicateOpcode.inj heq
      exact hrepeated
    · intro h
      obtain ⟨⟨_, ⟨⟩, hopcode'⟩, hentered'⟩ := hrepeats.mp h
      obtain rfl := hb.unique (hopcode'.byteField hfields)
      obtain rfl := Option.some.inj (hentered.symm.trans hentered')
      rfl
    · exact fun h => absurd hrepeated (h b j)
  | @badControl text _ _ _ o hblank hfields ho hfresh hbad cause =>
    have hmal : Row.Malformed text := by
      rintro ⟨g₀, g₁, g₂, hfields', -, ⟨a, ha⟩, ⟨b, hb⟩⟩
      obtain ⟨-, rfl, rfl⟩ := hfields.unique hfields'
      exact hbad a b ⟨ha, hb⟩
    refine Or.inr ⟨.malformed hline hblank hmal, _, _, rfl, reports_badLine (fun b j h => ?_) _⟩
    obtain ⟨⟨_, ⟨⟩, hopcode⟩, hget⟩ := hrepeats.mp h
    obtain rfl := ho.unique (.byte (hopcode.byteField hfields))
    cases hget.symm.trans (hfresh b rfl)
  | @step text o c hspells hfresh =>
    refine Or.inl ⟨not_badLine hline hspell hdistinct (Or.inr ⟨o, c, hspells, hfresh⟩),
      rows ++ [⟨(lines.take m).length + 1, o, c⟩], ?_, ?_⟩
    · rw [htake]
      exact .row hspell hspells
    · exact distinctOpcodes_concat_iff.mpr ⟨hdistinct, fresh_ofRows_iff.mp hfresh⟩

end

/-! ### All lines up to the first bad one -/

/-- Lines before any bad one spell rows with different opcodes. -/
theorem exists_linesSpell_take (lines : List Line) (m : Nat)
    (h : ∀ k ≤ m, ¬ BadLine lines k) :
    ∃ rows, LinesSpell (lines.take m) rows ∧ DistinctOpcodes rows := by
  induction m with
  | zero => exact ⟨[], .nil, List.nodup_nil⟩
  | succ m ih =>
    obtain ⟨rows, hspell, hdistinct⟩ := ih fun k hk => h k (by omega)
    cases hline : lineAt lines (m + 1) with
    | none =>
      -- All lines were taken before.
      have hle : lines.length ≤ m := List.getElem?_eq_none_iff.mp hline
      rw [List.take_of_length_le hle] at hspell
      rw [List.take_of_length_le (by omega)]
      exact ⟨rows, hspell, hdistinct⟩
    | some line =>
      rcases taken_or_reports hline hspell hdistinct with ⟨-, hnext⟩ | ⟨hbad, -⟩
      · exact hnext
      · exact absurd hbad (h (m + 1) le_rfl)

/-- The reader stops at the first bad line, whatever lines come behind it. -/
theorem exists_reports_of_isLeast {lines : List Line} {k : Nat}
    (h : IsLeast {k | BadLine lines k} k) :
    ∃ r fault, Reports lines k fault ∧
      ∀ after, empty.readLines (lines.take k ++ after) = (r, some fault) := by
  obtain ⟨line, hline⟩ : ∃ line, lineAt lines k = some line := by
    cases h.1 with
    | unreadable hline => exact ⟨_, hline⟩
    | malformed hline _ _ => exact ⟨_, hline⟩
    | repeated hrepeats => exact ⟨_, hrepeats.1.choose_spec.1⟩
  cases k with
  | zero => cases hline
  | succ m =>
    have hget : lines[m]? = some line := hline
    have hlt : m < lines.length := (List.getElem?_eq_some_iff.mp hget).1
    obtain ⟨rows, hspell, hdistinct⟩ := exists_linesSpell_take lines m
      fun k hk hbad => absurd (h.2 hbad) (by omega)
    rcases taken_or_reports hline hspell hdistinct with ⟨hgood, -⟩ | ⟨-, r, fault, hread, hreports⟩
    · exact absurd h.1 hgood
    · refine ⟨r, fault, hreports, fun after => ?_⟩
      -- The reader arrives at line `m + 1` without a fault, and stops there.
      have hbefore : empty.readLines (lines.take m) = (ofRows m rows, none) := by
        refine readLines_empty_eq_iff.mpr ⟨rows, hspell, hdistinct, ?_⟩
        rw [List.length_take, Nat.min_eq_left (by omega)]
      rw [List.take_add_one, hget, Option.toList_some, List.append_assoc, readLines_append,
        hbefore]
      show (ofRows m rows).readLines (line :: after) = _
      rw [readLines, hread]

/-- A new reader reads some data to its end exactly when no line of it is bad. Otherwise it reports
the first bad line, and bytes behind the newline of that line change neither the fault nor the
reader that is left. -/
theorem read_empty_reports_first_bad (bytes : List UInt8) :
    ((empty.read { bytes }).2 = none ↔ ∀ k, ¬ BadLine (Source.lines { bytes }) k) ∧
    ∀ k, IsLeast {k | BadLine (Source.lines { bytes }) k} k →
      ∃ r fault, empty.read { bytes } = (r, some fault) ∧
        Reports (Source.lines { bytes }) k fault ∧
        (∀ b j j', RepeatsAt (Source.lines { bytes }) k b j →
          RepeatsAt (Source.lines { bytes }) k b j' → j = j') ∧
        ∀ before after, bytes = before ++ after → before.getLast? = some newline →
          before.count newline = k →
          ∀ after', empty.read { bytes := before ++ after' } = (r, some fault) := by
  have hfirst : ∀ k, IsLeast {k | BadLine (Source.lines { bytes }) k} k → ∃ r fault,
      empty.read { bytes } = (r, some fault) ∧ Reports (Source.lines { bytes }) k fault ∧
        ∀ after, empty.readLines ((Source.lines { bytes }).take k ++ after) = (r, some fault) := by
    intro k hk
    obtain ⟨r, fault, hreports, hread⟩ := exists_reports_of_isLeast hk
    refine ⟨r, fault, ?_, hreports, hread⟩
    rw [read, ← List.take_append_drop k (Source.lines { bytes })]
    exact hread _
  refine ⟨⟨fun hnone k hbad => ?_, fun hgood => ?_⟩, fun k hk => ?_⟩
  · -- A bad line would give a first bad line, and that one is reported.
    classical
    have hbads : ∃ k, BadLine (Source.lines { bytes }) k := ⟨k, hbad⟩
    obtain ⟨r, fault, hread, -⟩ :=
      hfirst (Nat.find hbads) ⟨Nat.find_spec hbads, fun _ h => Nat.find_min' hbads h⟩
    rw [hread] at hnone
    cases hnone
  · obtain ⟨rows, hspell, hdistinct⟩ :=
      exists_linesSpell_take _ (Source.lines { bytes }).length fun k _ => hgood k
    rw [List.take_length] at hspell
    rw [read, readLines_empty_eq_iff.mpr ⟨rows, hspell, hdistinct, rfl⟩]
  · obtain ⟨r, fault, hread, hreports, hprefix⟩ := hfirst k hk
    refine ⟨r, fault, hread, hreports, fun b j j' h h' => ?_, ?_⟩
    · -- There is one fault, and it names one line.
      have heq := ((hreports.duplicate_iff b j).mpr h).symm.trans
        ((hreports.duplicate_iff b j').mpr h')
      exact (SourceFault.duplicateOpcode.inj heq).2.2
    · rintro before after rfl hend hcount after'
      have hlen := Source.length_lines_of_terminated hend
      rw [Source.lines_append_of_terminated hend, List.take_left' (by omega)] at hprefix
      rw [read, Source.lines_append_of_terminated hend]
      exact hprefix _

end Reader

end ControlStore
