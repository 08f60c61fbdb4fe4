import ControlStore.Proofs.FirstFault
import ControlStore.Proofs.Pieces
import ControlStore.Proofs.Session

/-!
# `ControlStore.Proofs.Stopped`: the reader that a fault leaves

A source that has a fault stops the reader at a line. All lines before it have been read, and
nothing behind it. `Reader.StoppedIn` names these parts of the source, down to the bytes, and
`Reader.StoppedAt` compares the reader that is left with the one that came to the line.

The line is counted, and no step is added. Owner and record stay as they are, with one exception. A
line whose opcode is in order and new, but which has a control field that is no byte, leaves its
opcode entered (`Reader.EntersOnly`). The opcode is then taken for good: no later line with this
opcode is read, in any later source of the session, and the fault names the line that failed. This
rests on the record of opcodes, in which no line removes or changes an entry
(`LineOutcome.get_opcodeLines`).

* `read_stopped`: every fault leaves a reader of this kind. Nothing is asked of the reader at the
  beginning, so it need not come from a session.
-/

set_option autoImplicit false

namespace ControlStore

/-! ### The data in front of a line -/

namespace Source

/-- There is at most one line more than there are newlines. -/
theorem length_lines_le (bytes : List UInt8) (failure : Option String) :
    (lines ⟨bytes, failure⟩).length ≤ bytes.count newline + 1 := by
  have hcomplete : (complete ⟨bytes, failure⟩).length = bytes.count newline := by
    rw [complete, List.length_dropLast, length_splitOn_newline]
    rfl
  rw [lines, List.length_append, List.length_map, hcomplete]
  cases failure with
  | some reason => exact Nat.le_refl _
  | none =>
    show _ + (if _ then _ else _ : List Line).length ≤ _
    split <;> simp

/-- A newline behind the first line cuts it off. -/
theorem lines_append_newline_cons {front : List UInt8} (h : newline ∉ front) (rest : List UInt8)
    (failure : Option String) :
    lines ⟨front ++ newline :: rest, failure⟩ =
      Line.ofTerminated front :: lines ⟨rest, failure⟩ := by
  have hbytes : front ++ newline :: rest = front ++ [newline] ++ rest := by simp
  have hend : (front ++ [newline]).getLast? = some newline := by simp
  have hsplit : front.splitOn newline = [front] := List.splitOn_eq_singleton h
  rw [hbytes, lines_append_of_terminated hend, lines_concat_newline, hsplit]
  rfl

/-- The lines in front of another line are those of a part of the data that ends in a newline. -/
theorem exists_head_of_lines_eq {bytes : List UInt8} {failure : Option String}
    {first later : List Line} {line : Line}
    (h : lines ⟨bytes, failure⟩ = first ++ line :: later) :
    ∃ head tail, bytes = head ++ tail ∧ WholeLines head ∧ lines { bytes := head } = first := by
  induction first generalizing bytes with
  | nil => exact ⟨[], bytes, rfl, Or.inl rfl, rfl⟩
  | cons opening first ih =>
    -- There are at least two lines, so there is a newline, and it ends the opening line.
    have hmem : newline ∈ bytes := by
      have hlen := length_lines_le bytes failure
      rw [h] at hlen
      simp only [List.cons_append, List.length_cons, List.length_append] at hlen
      exact List.count_pos_iff.mp (by omega)
    obtain ⟨front, rest, rfl, hfront⟩ := List.eq_append_cons_of_mem hmem
    rw [lines_append_newline_cons hfront, List.cons_append] at h
    obtain ⟨hopening, hrest⟩ := List.cons.inj h
    obtain ⟨head, tail, rfl, hwhole, hlines⟩ := ih hrest
    refine ⟨front ++ newline :: head, tail, by simp, Or.inr ?_, ?_⟩
    · cases hwhole with
      | inl hnil => simp [hnil]
      | inr hend => simp [List.getLast?_cons, hend]
    · rw [lines_append_newline_cons hfront, hopening, hlines]

end Source

namespace Reader

variable {r left : Reader} {line : Line} {fault : SourceFault} {o : UInt8} {k : Nat}

/-- The line has three fields with the new opcode `o` in front, but a control field is no byte. -/
def EntersOnly (r : Reader) (line : Line) (o : UInt8) : Prop :=
  ∃ text f₀ f₁ f₂, line = .ok text ∧ Row.HasFields text f₀ f₁ f₂ ∧ Row.ByteField f₀ o ∧
    r.opcodeLines.get o = none ∧ ¬ ((∃ a, Row.ByteField f₁ a) ∧ ∃ b, Row.ByteField f₂ b)

/-- The reader `left` is what is left of the reader `r` by a line that has stopped it. -/
structure StoppedAt (r : Reader) (line : Line) (left : Reader) : Prop where
  /-- No step is added. -/
  steps_eq : left.steps = r.steps
  /-- The line is counted. -/
  line_eq : left.line = r.line + 1
  /-- In most cases, nothing else happens. -/
  kept : (∀ o, ¬ r.EntersOnly line o) → left.owner = r.owner ∧ left.opcodeLines = r.opcodeLines
  /-- A new opcode is entered when only a control field is at fault. -/
  entered : ∀ o, r.EntersOnly line o →
    left.owner = some o ∧ left.opcodeLines = r.opcodeLines.set o (some left.line)
  /-- Such an opcode counts as repeated on each later line that has it, with any sources between. -/
  repeated : ∀ o, r.EntersOnly line o → ∀ (sources : List Source) (source : Source)
    (first later : List Line) (text : List Char) (r' : Reader),
    source.lines = first ++ .ok text :: later → Row.HasOpcode text o →
    (left.readAll sources).readLines first = (r', none) →
    (left.readAll sources).read source =
      (r'.nextLine, some (.duplicateOpcode (r'.line + 1) o left.line))

/-- The source stops the reader at a line behind `head`, which is read without a fault. -/
def StoppedIn (r : Reader) (source : Source) (fault : SourceFault) (left : Reader) : Prop :=
  ∃ head tail line later before, source.bytes = head ++ tail ∧ Source.WholeLines head ∧
    source.lines = Source.lines { bytes := head } ++ line :: later ∧
    r.read { bytes := head } = (before, none) ∧
    fault.line = r.line + (Source.lines { bytes := head }).length + 1 ∧
    before.StoppedAt line left

/-! ### One line -/

/-- Every line is counted, with a fault or without one. -/
theorem LineOutcome.line_eq {outcome : Reader × Option SourceFault}
    (h : LineOutcome r line outcome) : outcome.1.line = r.line + 1 := by
  cases h with
  | unreadable | blank | fieldCount | badOpcode | duplicate => rfl
  | badControl => exact line_enterOpcode _ _
  | step => exact line_enterOpcode _ _

/-- A fault names the line that it was met on. -/
theorem LineOutcome.fault_line (h : LineOutcome r line (left, some fault)) :
    fault.line = r.line + 1 := by
  cases h with
  | unreadable | fieldCount | badOpcode | duplicate | badControl => rfl

/-- A line that stops the reader adds no step. -/
theorem LineOutcome.steps_eq (h : LineOutcome r line (left, some fault)) :
    left.steps = r.steps := by
  cases h with
  | unreadable | fieldCount | badOpcode | duplicate => rfl
  | badControl => exact steps_enterOpcode _ _

/-- An opcode that is in order and new is entered, also when the line then stops the reader. -/
theorem LineOutcome.eq_enterOpcode (h : LineOutcome r line (left, some fault))
    (hrow : r.EntersOnly line o) : left = r.nextLine.enterOpcode (some o) := by
  obtain ⟨text, f₀, f₁, f₂, rfl, hfields, hbyte, hnew, hcontrol⟩ := hrow
  cases h with
  | fieldCount _ hnone => exact absurd hfields (hnone f₀ f₁ f₂)
  | badOpcode _ hfields' hbad =>
    obtain ⟨rfl, -, -⟩ := hfields.unique hfields'
    exact absurd (.byte hbyte) (hbad (some o))
  | duplicate hfields' hb hline =>
    obtain ⟨rfl, -, -⟩ := hfields.unique hfields'
    obtain rfl := hbyte.unique hb
    cases hnew.symm.trans hline
  | badControl _ hfields' ho _ _ =>
    obtain ⟨rfl, -, -⟩ := hfields.unique hfields'
    rw [ho.unique (.byte hbyte)]

/-- In all other cases, the line is only counted. -/
theorem LineOutcome.eq_nextLine (h : LineOutcome r line (left, some fault))
    (hrow : ∀ o, ¬ r.EntersOnly line o) : left = r.nextLine := by
  cases h with
  | unreadable | fieldCount | badOpcode | duplicate => rfl
  | @badControl text f₀ f₁ f₂ opcode _ hfields ho hfresh hbad =>
    cases opcode with
    | none => rfl
    | some o =>
      have hcontrol : ¬ ((∃ a, Row.ByteField f₁ a) ∧ ∃ b, Row.ByteField f₂ b) := by
        intro hboth
        obtain ⟨⟨a, ha⟩, ⟨b, hb⟩⟩ := hboth
        exact hbad a b ⟨ha, hb⟩
      exact absurd ⟨text, f₀, f₁, f₂, rfl, hfields, Row.opcodeField_some_iff.mp ho, hfresh o rfl,
        hcontrol⟩ (hrow o)

/-- No line removes or changes an entry in the record of opcodes. -/
theorem LineOutcome.get_opcodeLines {outcome : Reader × Option SourceFault}
    (h : LineOutcome r line outcome) (hget : r.opcodeLines.get o = some k) :
    outcome.1.opcodeLines.get o = some k := by
  -- An opcode that is entered is new, so it is another one.
  have hentered : ∀ opcode, r.Fresh opcode →
      (r.nextLine.enterOpcode opcode).opcodeLines.get o = some k := by
    intro opcode hfresh
    cases opcode with
    | none => exact hget
    | some o' =>
      have hne : o' ≠ o := by
        intro heq
        rw [← heq, hfresh o' rfl] at hget
        cases hget
      show (r.opcodeLines.set o' (some (r.line + 1))).get o = some k
      simp [hne, hget]
  cases h with
  | unreadable | blank | fieldCount | badOpcode | duplicate => exact hget
  | badControl _ _ _ hfresh => exact hentered _ hfresh
  | step _ hfresh => exact hentered _ hfresh

/-- A line with an opcode that is in the record is reported as repeating it. -/
theorem LineOutcome.eq_duplicate {text : List Char} {outcome : Reader × Option SourceFault}
    (h : LineOutcome r (.ok text) outcome) (hopcode : Row.HasOpcode text o)
    (hget : r.opcodeLines.get o = some k) :
    outcome = (r.nextLine, some (.duplicateOpcode (r.line + 1) o k)) := by
  have hnew : ∀ {f₀ f₁ f₂ : List Char} {opcode : Option UInt8}, Row.HasFields text f₀ f₁ f₂ →
      Row.OpcodeField f₀ opcode → ¬ r.Fresh opcode := by
    intro f₀ f₁ f₂ opcode hfields ho hfresh
    rw [ho.unique (.byte (hopcode.byteField hfields))] at hfresh
    cases hget.symm.trans (hfresh o rfl)
  cases h with
  | blank hblank => exact absurd hblank hopcode.not_blank
  | fieldCount _ hnone =>
    obtain ⟨f₀, f₁, f₂, hfields, -⟩ := hopcode
    exact absurd hfields (hnone f₀ f₁ f₂)
  | badOpcode _ hfields hbad =>
    exact absurd (.byte (hopcode.byteField hfields)) (hbad (some o))
  | duplicate hfields hb hline =>
    obtain rfl := hb.unique (hopcode.byteField hfields)
    rw [Option.some.inj (hline.symm.trans hget)]
  | badControl _ hfields ho hfresh => exact absurd hfresh (hnew hfields ho)
  | step hspells hfresh =>
    obtain ⟨f₀, f₁, f₂, hfields, ho, -, -⟩ := Row.spells_iff.mp hspells
    exact absurd hfresh (hnew hfields ho)

/-! ### Lines and sources -/

/-- The lines in front of the one that stops the reader are read without a fault. -/
theorem exists_stop_of_readLines {lines : List Line}
    (h : r.readLines lines = (left, some fault)) :
    ∃ first line later before, lines = first ++ line :: later ∧
      r.readLines first = (before, none) ∧ before.readLine line = (left, some fault) := by
  induction lines generalizing r with
  | nil => cases h
  | cons line lines ih =>
    rw [readLines] at h
    split at h
    · next r' hread =>
      obtain ⟨first, stop, later, before, rfl, hfirst, hstop⟩ := ih h
      refine ⟨line :: first, stop, later, before, rfl, ?_, hstop⟩
      rw [readLines, hread]
      exact hfirst
    · next r' fault' hread =>
      rw [h] at hread
      exact ⟨[], line, lines, r, rfl, rfl, hread⟩

/-- Lines that are read without a fault have all been counted. -/
theorem line_of_readLines {lines : List Line} {r' : Reader} (h : r.readLines lines = (r', none)) :
    r'.line = r.line + lines.length := by
  induction lines generalizing r with
  | nil =>
    cases h
    rfl
  | cons line lines ih =>
    rw [readLines] at h
    split at h
    · next next hread =>
      have hnext := (lineOutcome_readLine r line).line_eq
      rw [hread] at hnext
      rw [ih h, hnext, List.length_cons]
      omega
    · cases h

/-- A source that comes to a line with an opcode of the record stops there. -/
theorem read_eq_duplicate {source : Source} {first later : List Line} {text : List Char}
    {r' : Reader} (hsource : source.lines = first ++ .ok text :: later)
    (hopcode : Row.HasOpcode text o) (hget : r.opcodeLines.get o = some k)
    (hfirst : r.readLines first = (r', none)) :
    r.read source = (r'.nextLine, some (.duplicateOpcode (r'.line + 1) o k)) := by
  have hget' := readLines_keeps (fun _ _ _ hout => hout.get_opcodeLines) hget first
  rw [hfirst] at hget'
  have hline := (lineOutcome_readLine r' (.ok text)).eq_duplicate hopcode hget'
  rw [read, hsource, readLines_append, hfirst]
  show r'.readLines (.ok text :: later) = _
  rw [readLines, hline]

/-- A line that stops a reader leaves what `StoppedAt` says. -/
theorem LineOutcome.stoppedAt (h : LineOutcome r line (left, some fault)) :
    r.StoppedAt line left where
  steps_eq := h.steps_eq
  line_eq := h.line_eq
  kept hrow := by
    rw [h.eq_nextLine hrow]
    exact ⟨rfl, rfl⟩
  entered o hrow := by
    rw [h.eq_enterOpcode hrow]
    exact ⟨rfl, rfl⟩
  repeated o hrow sources source first later text r' hsource hopcode hfirst := by
    have hget : left.opcodeLines.get o = some left.line := by
      rw [h.eq_enterOpcode hrow]
      exact ByteTable.get_set_self _ _ _
    -- The entry is still there when the sources between have been read.
    have hget' := readAll_keeps (fun _ _ _ hout => hout.get_opcodeLines) hget sources
    exact read_eq_duplicate hsource hopcode hget' hfirst

/-- When a source stops a reader, all lines before the fault have been read, the line of the fault
is counted, and nothing else has changed, unless this line has entered an opcode. -/
theorem read_stopped (r left : Reader) (source : Source) (fault : SourceFault)
    (h : r.read source = (left, some fault)) : r.StoppedIn source fault left := by
  obtain ⟨first, line, later, before, hlines, hfirst, hstop⟩ := exists_stop_of_readLines h
  obtain ⟨head, tail, hbytes, hwhole, rfl⟩ := Source.exists_head_of_lines_eq hlines
  have hout := lineOutcome_readLine before line
  rw [hstop] at hout
  refine ⟨head, tail, line, later, before, hbytes, hwhole, hlines, hfirst, ?_, hout.stoppedAt⟩
  rw [hout.fault_line, line_of_readLines hfirst]

/-- The lines `⇥A⇥1` and `5⇥X⇥2`. The second has a control field that is no byte. -/
def badSecondLine : Source where
  bytes := [9, 65, 9, 49, 10, 53, 9, 88, 9, 50, 10]

/-- The second line enters the opcode 5 and adds no step. -/
theorem read_badSecondLine_stopped : ∃ left fault, empty.read badSecondLine = (left, some fault) ∧
    left.owner = some 5 ∧ left.program.length = 1 ∧ empty.StoppedIn badSecondLine fault left := by
  obtain ⟨fault, hfault⟩ : ∃ fault, (empty.read badSecondLine).2 = some fault :=
    Option.isSome_iff_exists.mp (by decide +kernel)
  have hread : empty.read badSecondLine = ((empty.read badSecondLine).1, some fault) :=
    Prod.ext rfl hfault
  exact ⟨_, fault, hread, by decide +kernel, by decide +kernel, read_stopped empty _ _ fault hread⟩

end Reader

end ControlStore
