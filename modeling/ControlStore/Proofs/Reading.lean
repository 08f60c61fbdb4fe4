import ControlStore.Proofs.LineOutcome
import ControlStore.Proofs.SourceLines
import Mathlib.Data.List.Induction
import Mathlib.Data.List.Nodup

/-!
# `ControlStore.Proofs.Reading`: a source and the rows that it holds

`LinesSpell lines rows` says which rows some lines hold, by the grammar alone: blank lines hold
none, and each other line spells one. `stepsOf rows` is the program of these rows. The owner of a
step is the opcode of the nearest row at or before it that has one (`ownerAt`).

* `readLines_empty_eq_iff`: a new reader takes some lines without a fault exactly when they spell
  rows whose opcodes are all different. It then stands as `Reader.ofRows` says. The induction adds
  one line at the end, and `addStep_ofRows` is its step.
* `read_empty_ok_iff_linesSpell`: the same for the lines of some data, with the program that was
  read.

Carriage returns at the end of a line make no difference to the row that it spells, so it does not
matter whether a newline stands behind them (`linesSpell_congr_bare`).
-/

set_option autoImplicit false

namespace ControlStore

/-- A row of a source: the number of its line and what its fields stand for. -/
structure SourceRow where
  line : Nat
  opcode : Option UInt8
  control : ControlPair
  deriving DecidableEq, Repr

/-- The lines hold exactly these rows. Lines are numbered from one. -/
inductive LinesSpell : List Line → List SourceRow → Prop where
  | nil : LinesSpell [] []
  | blank {lines : List Line} {rows : List SourceRow} {text : List Char}
      (h : LinesSpell lines rows) (htext : Row.Blank text) :
      LinesSpell (lines ++ [.ok text]) rows
  | row {lines : List Line} {rows : List SourceRow} {text : List Char} {opcode : Option UInt8}
      {control : ControlPair} (h : LinesSpell lines rows)
      (htext : Row.Spells text opcode control) :
      LinesSpell (lines ++ [.ok text]) (rows ++ [⟨lines.length + 1, opcode, control⟩])

/-- No opcode opens two sequences. -/
def DistinctOpcodes (rows : List SourceRow) : Prop :=
  (rows.filterMap (·.opcode)).Nodup

/-- The opcode of the last row that has one. -/
def lastOpcode (rows : List SourceRow) : Option UInt8 :=
  rows.reverse.findSome? (·.opcode)

/-- The opcode of the nearest row at or before row `i` that has one. -/
def ownerAt (rows : List SourceRow) (i : Nat) : Option UInt8 :=
  lastOpcode (rows.take (i + 1))

/-- The program of some rows, one step for each. -/
def stepsOf (rows : List SourceRow) : Program :=
  rows.mapIdx fun i row =>
    { position := i, line := row.line, opcode := row.opcode, owner := ownerAt rows i,
      control := row.control }

/-- The line of the row with the opcode `b`. -/
def openingLine (rows : List SourceRow) (b : UInt8) : Option Nat :=
  (rows.find? fun row => row.opcode = some b).map (·.line)

/-- The reader that has taken `n` lines with the given rows. -/
def Reader.ofRows (n : Nat) (rows : List SourceRow) : Reader where
  line := n
  owner := lastOpcode rows
  opcodeLines := .ofFn (openingLine rows)
  steps := (stepsOf rows).toArray

/-! ### One more row -/

/-- A further row has the last opcode, unless it has none. -/
theorem lastOpcode_concat (rows : List SourceRow) (row : SourceRow) :
    lastOpcode (rows ++ [row]) = row.opcode.or (lastOpcode rows) := by
  simp only [lastOpcode, List.reverse_append, List.reverse_singleton, List.singleton_append,
    List.findSome?_cons]
  cases row.opcode <;> rfl

/-- The owner of a row does not depend on the rows behind it. -/
theorem ownerAt_concat_of_lt {rows : List SourceRow} {i : Nat} (hi : i < rows.length)
    (row : SourceRow) : ownerAt (rows ++ [row]) i = ownerAt rows i := by
  rw [ownerAt, List.take_append_of_le_length (by omega), ownerAt]

/-- The last row is owned by the last opcode. -/
theorem ownerAt_concat_length (rows : List SourceRow) (row : SourceRow) :
    ownerAt (rows ++ [row]) rows.length = lastOpcode (rows ++ [row]) := by
  rw [ownerAt, List.take_of_length_le (by simp)]

/-- A further row adds one step behind the others. -/
theorem stepsOf_concat (rows : List SourceRow) (row : SourceRow) :
    stepsOf (rows ++ [row]) = stepsOf rows ++
      [{ position := rows.length, line := row.line, opcode := row.opcode,
         owner := lastOpcode (rows ++ [row]), control := row.control }] := by
  rw [stepsOf, List.mapIdx_concat, ownerAt_concat_length]
  congr 1
  -- The owners of the rows before do not look at the further row.
  refine List.mapIdx_eq_mapIdx_iff.mpr fun i hi => ?_
  rw [ownerAt_concat_of_lt hi]

/-- An opcode is opened on its first line, and a further row comes behind all others. -/
theorem openingLine_concat (rows : List SourceRow) (row : SourceRow) (b : UInt8) :
    openingLine (rows ++ [row]) b =
      (openingLine rows b).or (if row.opcode = some b then some row.line else none) := by
  rw [openingLine, List.find?_append, Option.map_or, List.find?_singleton]
  congr 1
  by_cases h : row.opcode = some b <;> simp [h]

/-- An opcode without a line is in no row. -/
theorem openingLine_eq_none_iff {rows : List SourceRow} {b : UInt8} :
    openingLine rows b = none ↔ ∀ row ∈ rows, row.opcode ≠ some b := by
  simp [openingLine]

/-- An opcode in a further row has to be new. -/
theorem distinctOpcodes_concat_iff {rows : List SourceRow} {row : SourceRow} :
    DistinctOpcodes (rows ++ [row]) ↔
      DistinctOpcodes rows ∧ ∀ b ∈ row.opcode, openingLine rows b = none := by
  rw [DistinctOpcodes, List.filterMap_append, DistinctOpcodes]
  cases ho : row.opcode with
  | none => simp [ho]
  | some b =>
    have hlast : [row].filterMap (·.opcode) = [b] := by simp [ho]
    have hnew : openingLine rows b = none ↔ b ∉ rows.filterMap (·.opcode) := by
      simp [openingLine_eq_none_iff]
    simp only [hlast, Option.mem_some_iff, forall_eq', hnew]
    rw [List.nodup_append_comm, List.singleton_append, List.nodup_cons, and_comm]

/-- Two rows with the same opcode are the same row. -/
theorem DistinctOpcodes.index_inj {rows : List SourceRow} (h : DistinctOpcodes rows)
    {i j : Nat} {row row' : SourceRow} {b : UInt8} (hi : rows[i]? = some row)
    (hj : rows[j]? = some row') (ho : row.opcode = some b) (ho' : row'.opcode = some b) :
    i = j := by
  have hpair := List.pairwise_iff_getElem.mp (List.pairwise_filterMap.mp h)
  obtain ⟨hilt, rfl⟩ := List.getElem?_eq_some_iff.mp hi
  obtain ⟨hjlt, rfl⟩ := List.getElem?_eq_some_iff.mp hj
  rcases Nat.lt_trichotomy i j with hlt | heq | hgt
  · exact absurd rfl (hpair i j hilt hjlt hlt b ho b ho')
  · exact heq
  · exact absurd rfl (hpair j i hjlt hilt hgt b ho' b ho)

/-- The line of an opcode is that of the row that has it. -/
theorem openingLine_eq_some_iff {rows : List SourceRow} (h : DistinctOpcodes rows) {b : UInt8}
    {k : Nat} : openingLine rows b = some k ↔ ∃ row ∈ rows, row.line = k ∧ row.opcode = some b := by
  rw [openingLine, Option.map_eq_some_iff]
  constructor
  · rintro ⟨row, hfind, rfl⟩
    exact ⟨row, List.mem_of_find?_eq_some hfind, rfl, by simpa using List.find?_some hfind⟩
  · rintro ⟨row, hrow, rfl, ho⟩
    obtain ⟨row', hfind⟩ : ∃ row', (rows.find? fun row => row.opcode = some b) = some row' :=
      Option.isSome_iff_exists.mp (List.find?_isSome.mpr ⟨row, hrow, by simpa using ho⟩)
    -- The first row with this opcode is the only one.
    have ho' : row'.opcode = some b := by simpa using List.find?_some hfind
    obtain ⟨i, hi⟩ := List.mem_iff_getElem?.mp hrow
    obtain ⟨j, hj⟩ := List.mem_iff_getElem?.mp (List.mem_of_find?_eq_some hfind)
    obtain rfl := h.index_inj hi hj ho ho'
    exact ⟨row', hfind, by rw [Option.some.inj (hi.symm.trans hj)]⟩

/-- Without a line there is no row. -/
theorem linesSpell_nil_iff {rows : List SourceRow} : LinesSpell [] rows ↔ rows = [] := by
  constructor
  · intro h
    generalize hnil : ([] : List Line) = lines at h
    cases h with
    | nil => rfl
    | blank | row => exact absurd hnil (by simp)
  · rintro rfl
    exact .nil

/-- The last line of some lines that spell rows is blank or spells the last row. -/
theorem linesSpell_concat_iff {lines : List Line} {line : Line} {rows : List SourceRow} :
    LinesSpell (lines ++ [line]) rows ↔
      (∃ text, line = .ok text ∧ Row.Blank text ∧ LinesSpell lines rows) ∨
      ∃ text opcode control rows', line = .ok text ∧ Row.Spells text opcode control ∧
        LinesSpell lines rows' ∧ rows = rows' ++ [⟨lines.length + 1, opcode, control⟩] := by
  constructor
  · intro h
    generalize hall : lines ++ [line] = all at h
    cases h with
    | nil => exact absurd hall (by simp)
    | blank h htext =>
      obtain ⟨rfl, hline⟩ := List.append_inj' hall rfl
      exact Or.inl ⟨_, by simpa using hline, htext, h⟩
    | row h htext =>
      obtain ⟨rfl, hline⟩ := List.append_inj' hall rfl
      exact Or.inr ⟨_, _, _, _, by simpa using hline, htext, h, rfl⟩
  · rintro (⟨text, rfl, htext, h⟩ | ⟨text, opcode, control, rows', rfl, htext, h, rfl⟩)
    · exact .blank h htext
    · exact .row h htext

/-- Lines with the same content spell the same rows. -/
theorem linesSpell_congr_bare {lines lines' : List Line} {rows : List SourceRow}
    (h : lines.map Line.bare = lines'.map Line.bare) :
    LinesSpell lines rows ↔ LinesSpell lines' rows := by
  induction lines using List.reverseRecOn generalizing lines' rows with
  | nil =>
    obtain rfl := List.map_eq_nil_iff.mp h.symm
    exact Iff.rfl
  | append_singleton lines line ih =>
    rw [List.map_append, List.map_singleton] at h
    obtain ⟨before, last, rfl, hbefore, hlast⟩ := List.append_eq_map_iff.mp h
    obtain ⟨line', rfl, hline⟩ := List.map_eq_singleton_iff.mp hlast
    have hlen : lines.length = before.length := by simpa using congrArg List.length hbefore.symm
    rw [linesSpell_concat_iff, linesSpell_concat_iff, hlen]
    simp only [ih hbefore.symm]
    cases line with
    | error cause =>
      cases line' with
      | error cause' => simp
      | ok text' => cases hline
    | ok text =>
      cases line' with
      | error cause' => cases hline
      | ok text' =>
        have hbare := (Except.ok.inj hline).symm
        have hblank : Row.Blank text ↔ Row.Blank text' := by
          rw [← Row.blank_dropTrailing_return_iff, hbare, Row.blank_dropTrailing_return_iff]
        simp [hblank, Row.spells_congr_bare hbare]

namespace Reader

/-- A new reader has taken no line and no row. -/
theorem ofRows_nil : ofRows 0 [] = empty := by
  have htable : ByteTable.ofFn (openingLine []) = .replicate none :=
    ByteTable.ext_get fun b => by simp [openingLine]
  rw [ofRows, htable]
  rfl

/-- An opcode is new to the reader when no row has it. -/
theorem fresh_ofRows_iff {n : Nat} {rows : List SourceRow} {o : Option UInt8} :
    (ofRows n rows).Fresh o ↔ ∀ b ∈ o, openingLine rows b = none := by
  simp [Fresh, ofRows]

/-- A row with a new opcode, or without one, is added to the rows. -/
theorem addStep_ofRows {n : Nat} {rows : List SourceRow} {o : Option UInt8}
    (hfresh : (ofRows n rows).Fresh o) (c : ControlPair) :
    ((ofRows n rows).nextLine.enterOpcode o).addStep o c =
      ofRows (n + 1) (rows ++ [⟨n + 1, o, c⟩]) := by
  rw [fresh_ofRows_iff] at hfresh
  have howner : ((ofRows n rows).nextLine.enterOpcode o).owner =
      lastOpcode (rows ++ [⟨n + 1, o, c⟩]) := by
    rw [lastOpcode_concat]
    cases o <;> rfl
  have htable : ((ofRows n rows).nextLine.enterOpcode o).opcodeLines =
      .ofFn (openingLine (rows ++ [⟨n + 1, o, c⟩])) := by
    refine ByteTable.ext_get fun b => ?_
    rw [ByteTable.get_ofFn, openingLine_concat]
    cases o with
    | none => simp [enterOpcode, nextLine, ofRows]
    | some b' =>
      -- The entry of `b'` was empty before, so no earlier line is lost.
      by_cases hb : b' = b
      · subst hb
        simp [enterOpcode, nextLine, ofRows, hfresh b' rfl]
      · simp [enterOpcode, nextLine, ofRows, hb]
  have hline : ((ofRows n rows).nextLine.enterOpcode o).line = n + 1 := line_enterOpcode _ o
  have hsteps : ((ofRows n rows).nextLine.enterOpcode o).steps = (stepsOf rows).toArray :=
    steps_enterOpcode _ o
  have hsize : (stepsOf rows).length = rows.length := by simp [stepsOf]
  rw [addStep, howner, htable, hline, hsteps, ofRows, stepsOf_concat, List.push_toArray,
    List.size_toArray, hsize]

/-- Lines are taken without a fault when all but the last are, and the last one behind them. -/
theorem readLines_concat_eq_none_iff {r r' : Reader} {lines : List Line} {line : Line} :
    r.readLines (lines ++ [line]) = (r', none) ↔
      ∃ r₁, r.readLines lines = (r₁, none) ∧ r₁.readLine line = (r', none) := by
  rw [readLines_append]
  rcases r.readLines lines with ⟨r₁, _ | fault⟩
  · simp
  · simp

/-- A new reader takes exactly those lines without a fault that spell rows with different
opcodes. -/
theorem readLines_empty_eq_iff {lines : List Line} {r : Reader} :
    empty.readLines lines = (r, none) ↔
      ∃ rows, LinesSpell lines rows ∧ DistinctOpcodes rows ∧ r = ofRows lines.length rows := by
  -- Both sides take the last line apart, and `ih` speaks of the reader in front of it.
  induction lines using List.reverseRecOn generalizing r with
  | nil =>
    simp only [linesSpell_nil_iff]
    constructor
    · rintro ⟨⟩
      exact ⟨[], rfl, List.nodup_nil, ofRows_nil.symm⟩
    · rintro ⟨_, rfl, -, rfl⟩
      rw [readLines, List.length_nil, ofRows_nil]
  | append_singleton lines line ih =>
    rw [readLines_concat_eq_none_iff, List.length_append, List.length_singleton]
    simp only [ih, readLine_eq_none_iff, linesSpell_concat_iff]
    constructor
    · rintro ⟨_, ⟨rows, hspell, hdistinct, rfl⟩, hlast⟩
      rcases hlast with ⟨text, rfl, hblank, rfl⟩ | ⟨text, o, c, rfl, htext, hfresh, rfl⟩
      · exact ⟨rows, Or.inl ⟨text, rfl, hblank, hspell⟩, hdistinct, rfl⟩
      · refine ⟨_, Or.inr ⟨text, o, c, rows, rfl, htext, hspell, rfl⟩, ?_, addStep_ofRows hfresh c⟩
        exact distinctOpcodes_concat_iff.mpr ⟨hdistinct, fresh_ofRows_iff.mp hfresh⟩
    · rintro ⟨rows, hspell, hdistinct, rfl⟩
      rcases hspell with ⟨text, rfl, hblank, hspell⟩ | ⟨text, o, c, rows', rfl, htext, hspell, rfl⟩
      · exact ⟨_, ⟨rows, hspell, hdistinct, rfl⟩, Or.inl ⟨text, rfl, hblank, rfl⟩⟩
      · obtain ⟨hdistinct', hnew⟩ := distinctOpcodes_concat_iff.mp hdistinct
        have hfresh : (ofRows lines.length rows').Fresh o := fresh_ofRows_iff.mpr hnew
        exact ⟨_, ⟨rows', hspell, hdistinct', rfl⟩,
          Or.inr ⟨text, o, c, rfl, htext, hfresh, (addStep_ofRows hfresh c).symm⟩⟩

/-- A new reader accepts some data exactly when its lines spell rows with different opcodes, and
what it reads is then the program of these rows: one step for each, with its place, the number of
its line, its opcode and control bytes, and the nearest opcode at or before it as its owner. -/
theorem read_empty_ok_iff_linesSpell (bytes : List UInt8) (program : Program) :
    (∃ r, empty.read { bytes } = (r, none) ∧ r.program = program) ↔
      ∃ rows, LinesSpell (Source.lines { bytes }) rows ∧ DistinctOpcodes rows ∧
        program = stepsOf rows := by
  have hprogram : ∀ n rows, (ofRows n rows).program = stepsOf rows := fun _ _ => rfl
  simp only [read, readLines_empty_eq_iff]
  constructor
  · rintro ⟨_, ⟨rows, hspell, hdistinct, rfl⟩, rfl⟩
    exact ⟨rows, hspell, hdistinct, hprogram _ rows⟩
  · rintro ⟨rows, hspell, hdistinct, rfl⟩
    exact ⟨_, ⟨rows, hspell, hdistinct, rfl⟩, hprogram _ rows⟩

end Reader

end ControlStore
