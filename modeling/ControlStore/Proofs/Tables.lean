import ControlStore.Compilation
import ControlStore.Proofs.Interning
import ControlStore.Proofs.Reading

/-!
# `ControlStore.Proofs.Tables`: the tables of some rows

`RomSet.ofRows` gives the tables of some rows without a program in between. Owners have no part in
it: a row continues the sequence before it exactly when it has no opcode (`Continuation`).

* `ownerAt_succ_eq_iff`: where all opcodes are different, two neighbouring rows have the same owner
  exactly when the second one has no opcode. A repeated opcode would break this.
* `build_stepsOf`: the program of at most 128 such rows has the tables `RomSet.ofRows`.
* `Compilation.exists_rows_of_ok`: a source that compiles holds such rows.
* `get_opcodeImage_ofRows`, `get_stateImage_ofRows_succ` and `get_controlImage_ofRows` say what
  the images hold of each row.
-/

set_option autoImplicit false

namespace ControlStore

/-- The opcode field of row `i`, if there is such a row. -/
def opcodeAt (rows : List SourceRow) (i : Nat) : Option (Option UInt8) :=
  rows[i]?.map (·.opcode)

/-- There is a row `i`, and it has no opcode. -/
def Continuation (rows : List SourceRow) (i : Nat) : Prop :=
  opcodeAt rows i = some none

instance (rows : List SourceRow) (i : Nat) : Decidable (Continuation rows i) :=
  inferInstanceAs (Decidable (_ = _))

/-- The state behind row `i`. -/
def nextOf (rows : List SourceRow) (i : Nat) : NextState :=
  if Continuation rows (i + 1) then .continueAt (entryAddress (i + 1))
  else if i + 1 = fetchLength then .fetchComplete
  else .dispatch

/-- The control addresses of some rows, with the book that lists their pairs. -/
def bookOf (rows : List SourceRow) : List UInt8 × AddressBook :=
  AddressBook.empty.internAll (rows.map (·.control))

/-- The tables of some rows. -/
def RomSet.ofRows (rows : List SourceRow) : RomSet where
  opcodes := .ofFn fun o => (rows.findIdx? fun row => row.opcode = some o).map entryAddress
  states := (bookOf rows).1.mapIdx fun i address => ⟨address, nextOf rows i⟩
  controls := (bookOf rows).2.pairs

/-- The opcode field of a row is that of the row at its place. -/
theorem opcodeAt_eq_some_iff {rows : List SourceRow} {i : Nat} {o : Option UInt8} :
    opcodeAt rows i = some o ↔ ∃ row, rows[i]? = some row ∧ row.opcode = o :=
  Option.map_eq_some_iff

/-- There is an opcode field only where there is a row. -/
theorem lt_length_of_opcodeAt {rows : List SourceRow} {i : Nat} {o : Option UInt8}
    (h : opcodeAt rows i = some o) : i < rows.length := by
  obtain ⟨row, hrow, -⟩ := opcodeAt_eq_some_iff.mp h
  exact (List.getElem?_eq_some_iff.mp hrow).1

/-- Where all opcodes are different, an opcode has one row at most. -/
theorem DistinctOpcodes.opcodeAt_inj {rows : List SourceRow} (h : DistinctOpcodes rows)
    {i j : Nat} {o : UInt8} (hi : opcodeAt rows i = some (some o))
    (hj : opcodeAt rows j = some (some o)) : i = j := by
  obtain ⟨row, hrow, ho⟩ := opcodeAt_eq_some_iff.mp hi
  obtain ⟨row', hrow', ho'⟩ := opcodeAt_eq_some_iff.mp hj
  exact h.index_inj hrow hrow' ho ho'

/-! ### Addresses -/

/-- Within the capacity, different places have different addresses. -/
theorem entryAddress_inj {i j : Nat} (hi : i < capacity) (hj : j < capacity) :
    entryAddress i = entryAddress j ↔ i = j := by
  rw [← UInt8.toNat_inj, toNat_entryAddress hi, toNat_entryAddress hj]
  omega

/-! ### From rows to tables -/

/-- There is one step for each row. -/
@[simp] theorem length_stepsOf (rows : List SourceRow) : (stepsOf rows).length = rows.length := by
  simp [stepsOf]

/-- Each step is made from the row at its place. -/
theorem getElem?_stepsOf (rows : List SourceRow) (i : Nat) :
    (stepsOf rows)[i]? = rows[i]?.map fun row =>
      { position := i, line := row.line, opcode := row.opcode, owner := ownerAt rows i,
        control := row.control } :=
  List.getElem?_mapIdx

/-- Each step names the place at which it is listed. -/
def Program.InPlace (program : Program) : Prop :=
  ∀ (i : Nat) (step : Step), program[i]? = some step → step.position = i

/-- Steps at their own places name positions of the program. -/
theorem Program.InPlace.position_lt {program : Program} (h : program.InPlace) :
    ∀ step ∈ program, step.position < program.length := by
  intro step hstep
  obtain ⟨i, hi⟩ := List.mem_iff_getElem?.mp hstep
  rw [h i step hi]
  exact (List.getElem?_eq_some_iff.mp hi).1

/-- The steps of rows are at their own places. -/
theorem inPlace_stepsOf (rows : List SourceRow) : (stepsOf rows).InPlace := by
  intro i step hstep
  rw [getElem?_stepsOf] at hstep
  obtain ⟨row, -, rfl⟩ := Option.map_eq_some_iff.mp hstep
  rfl

/-- The control pairs of the steps are those of the rows, in order. -/
@[simp] theorem controls_stepsOf (rows : List SourceRow) :
    (stepsOf rows).controls = rows.map (·.control) := by
  refine List.ext_getElem? fun i => ?_
  simp only [Program.controls, stepsOf, List.getElem?_map, List.getElem?_mapIdx, Option.map_map]
  rfl

/-- The owners of the steps are those of the rows. -/
theorem getElem?_owners_stepsOf {rows : List SourceRow} {i : Nat} (hi : i < rows.length) :
    (stepsOf rows).owners[i]? = some (ownerAt rows i) := by
  simp [Program.owners, stepsOf, hi]

/-- A row without an opcode has the owner of the row before it. -/
theorem ownerAt_succ {rows : List SourceRow} {i : Nat} {row : SourceRow}
    (hrow : rows[i + 1]? = some row) : ownerAt rows (i + 1) = row.opcode.or (ownerAt rows i) := by
  have htake : rows.take (i + 2) = rows.take (i + 1) ++ [row] := by
    rw [List.take_add_one, hrow, Option.toList_some]
  rw [ownerAt, htake, lastOpcode_concat, ownerAt]

/-- The first row is owned by its own opcode, if it has one. -/
theorem ownerAt_zero {rows : List SourceRow} {row : SourceRow} (hrow : rows[0]? = some row) :
    ownerAt rows 0 = row.opcode := by
  have htake : rows.take 1 = [] ++ [row] := by
    rw [List.take_add_one, hrow, Option.toList_some, List.take_zero]
  rw [ownerAt, htake, lastOpcode_concat]
  exact Option.or_none

/-- The owner of a row is the opcode of a row at or before it, with no opcode between the two. -/
theorem ownerAt_eq_some_iff {rows : List SourceRow} {i : Nat} (hi : i < rows.length) {o : UInt8} :
    ownerAt rows i = some o ↔
      ∃ p ≤ i, opcodeAt rows p = some (some o) ∧ ∀ j, p < j → j ≤ i → Continuation rows j := by
  induction i with
  | zero =>
    have hrow : rows[0]? = some rows[0] := List.getElem?_eq_getElem hi
    rw [ownerAt_zero hrow]
    constructor
    · intro ho
      refine ⟨0, Nat.le_refl 0, opcodeAt_eq_some_iff.mpr ⟨_, hrow, ho⟩, ?_⟩
      intro j hj hj'
      omega
    · intro h
      obtain ⟨p, hp, ho, -⟩ := h
      obtain rfl : p = 0 := Nat.le_zero.mp hp
      obtain ⟨row, hrow', ho⟩ := opcodeAt_eq_some_iff.mp ho
      rwa [Option.some.inj (hrow.symm.trans hrow')]
  | succ i ih =>
    have hrow : rows[i + 1]? = some rows[i + 1] := List.getElem?_eq_getElem hi
    have hopcode : opcodeAt rows (i + 1) = some rows[i + 1].opcode := by
      rw [opcodeAt, hrow, Option.map_some]
    rw [ownerAt_succ hrow]
    cases ho : rows[i + 1].opcode with
    | none =>
      -- Without an opcode of its own, the row belongs to the sequence of the row before.
      rw [ho] at hopcode
      rw [Option.none_or, ih (by omega)]
      constructor
      · intro h
        obtain ⟨p, hp, hpo, hbetween⟩ := h
        refine ⟨p, by omega, hpo, ?_⟩
        intro j hj hj'
        rcases Nat.eq_or_lt_of_le hj' with rfl | hlt
        · exact hopcode
        · exact hbetween j hj (by omega)
      · intro h
        obtain ⟨p, hp, hpo, hbetween⟩ := h
        have hne : p ≠ i + 1 := by
          intro heq
          rw [heq, hopcode] at hpo
          cases hpo
        exact ⟨p, by omega, hpo, fun j hj hj' => hbetween j hj (by omega)⟩
    | some o' =>
      rw [ho] at hopcode
      rw [Option.some_or]
      constructor
      · intro heq
        rw [heq] at hopcode
        exact ⟨i + 1, Nat.le_refl _, hopcode, fun j hj hj' => absurd hj (by omega)⟩
      · intro h
        obtain ⟨p, hp, hpo, hbetween⟩ := h
        rcases Nat.eq_or_lt_of_le hp with rfl | hlt
        · exact Option.some.inj (hopcode.symm.trans hpo)
        · -- The row itself would have to be without an opcode.
          have hcont : opcodeAt rows (i + 1) = some none := hbetween (i + 1) hlt (Nat.le_refl _)
          cases hopcode.symm.trans hcont

/-- Where all opcodes are different, a row has the owner of the row before it only if it has no
opcode of its own. -/
theorem ownerAt_succ_eq_iff {rows : List SourceRow} (hdistinct : DistinctOpcodes rows) {i : Nat}
    (hi : i + 1 < rows.length) :
    ownerAt rows (i + 1) = ownerAt rows i ↔ Continuation rows (i + 1) := by
  have hrow : rows[i + 1]? = some rows[i + 1] := List.getElem?_eq_getElem hi
  rw [ownerAt_succ hrow, Continuation, opcodeAt, hrow, Option.map_some, Option.some.injEq]
  cases ho : rows[i + 1].opcode with
  | none => simp
  | some o =>
    refine iff_of_false (fun h => ?_) (by simp)
    -- The owner before comes from an earlier row, which would have the same opcode.
    obtain ⟨j, hj, hjo, -⟩ := (ownerAt_eq_some_iff (by omega)).mp h.symm
    have hji : j = i + 1 := hdistinct.opcodeAt_inj hjo (opcodeAt_eq_some_iff.mpr ⟨_, hrow, ho⟩)
    omega

/-- The builder compares owners, and this amounts to looking for opcodes. -/
theorem ofOwners_stepsOf {rows : List SourceRow} (hdistinct : DistinctOpcodes rows) {i : Nat}
    (hi : i < rows.length) : NextState.ofOwners (stepsOf rows).owners i = nextOf rows i := by
  have hlen : (stepsOf rows).owners.length = rows.length := by
    simp [Program.owners, stepsOf]
  -- Past the last row there is no continuation, which is what the bound on `i + 1` asks for.
  have hiff : (i + 1 < (stepsOf rows).owners.length ∧
      (stepsOf rows).owners[i + 1]? = (stepsOf rows).owners[i]?) ↔ Continuation rows (i + 1) := by
    rw [hlen]
    constructor
    · rintro ⟨hlt, heq⟩
      rw [getElem?_owners_stepsOf hlt, getElem?_owners_stepsOf hi, Option.some.injEq] at heq
      exact (ownerAt_succ_eq_iff hdistinct hlt).mp heq
    · intro h
      have hlt : i + 1 < rows.length := lt_length_of_opcodeAt h
      refine ⟨hlt, ?_⟩
      rw [getElem?_owners_stepsOf hlt, getElem?_owners_stepsOf hi,
        (ownerAt_succ_eq_iff hdistinct hlt).mpr h]
  simp only [NextState.ofOwners, hiff, nextOf]

/-- The last step writes its opcode over what was there before. -/
theorem opcodeTable_concat (program : Program) (step : Step) :
    Program.opcodeTable (program ++ [step]) =
      match step.opcode with
      | none => program.opcodeTable
      | some o => program.opcodeTable.set o (some (entryAddress step.position)) := by
  rw [Program.opcodeTable, List.foldl_append]
  rfl

/-- Where all opcodes are different, the table has the address of the row with the opcode. -/
theorem get_opcodeTable_stepsOf {rows : List SourceRow} (hdistinct : DistinctOpcodes rows)
    (o : UInt8) : (stepsOf rows).opcodeTable.get o =
      (rows.findIdx? fun row => row.opcode = some o).map entryAddress := by
  induction rows using List.reverseRecOn with
  | nil => simp [stepsOf, Program.opcodeTable]
  | append_singleton rows row ih =>
    obtain ⟨hdistinct, hnew⟩ := distinctOpcodes_concat_iff.mp hdistinct
    rw [stepsOf_concat, opcodeTable_concat, List.findIdx?_append]
    cases ho : row.opcode with
    | none => simp [ho, ih hdistinct]
    | some o' =>
      by_cases hoo : o' = o
      · -- The opcode is new, so the search goes past all earlier rows.
        subst hoo
        have hfirst : (rows.findIdx? fun row => row.opcode = some o') = none := by
          simpa using openingLine_eq_none_iff.mp (hnew o' ho)
        simp [ho, hfirst]
      · simp [ho, hoo, ih hdistinct]

/-- What succeeds on every item of a list succeeds on the list. -/
theorem mapM_eq_ok_map {α β ε : Type} {f : α → Except ε β} {g : α → β} {l : List α}
    (h : ∀ a ∈ l, f a = .ok (g a)) : l.mapM f = .ok (l.map g) := by
  induction l with
  | nil => rfl
  | cons a l ih =>
    rw [List.mapM_cons, h a List.mem_cons_self, ih fun b hb => h b (List.mem_cons_of_mem a hb)]
    rfl

/-- There is a control address for each step. -/
theorem Program.length_internAll_controls (program : Program) :
    (AddressBook.empty.internAll program.controls).1.length = program.length := by
  simp [Program.controls]

/-- The entry of a step, if its position is one of the program. -/
def Program.entryOf (program : Program) (step : Step) : StateEntry where
  controlAddress := (AddressBook.empty.internAll program.controls).1.getD step.position 0
  next := .ofOwners program.owners step.position

/-- A program of at most 128 steps has tables if all of its positions are below its length. -/
theorem build_eq_ok {program : Program} (hlen : program.length ≤ capacity)
    (hpos : ∀ step ∈ program, step.position < program.length) :
    program.build = .ok
      { opcodes := program.opcodeTable
        states := program.map program.entryOf
        controls := (AddressBook.empty.internAll program.controls).2.pairs } := by
  have hentry : ∀ step ∈ program,
      StateEntry.ofStep (AddressBook.empty.internAll program.controls).1 program.owners step =
        .ok (program.entryOf step) := by
    intro step hstep
    have hlt := program.length_internAll_controls ▸ hpos step hstep
    rw [StateEntry.ofStep, Program.entryOf, List.getD_eq_getElem?_getD,
      List.getElem?_eq_getElem hlt]
    rfl
  rw [Program.build, if_neg (Nat.not_lt.mpr hlen)]
  -- The addresses and the book are bound together, which hides them from `rw`.
  show (program.mapM (StateEntry.ofStep _ program.owners)).map _ = _
  rw [mapM_eq_ok_map hentry]
  rfl

/-- There is one control address for each row. -/
@[simp] theorem length_bookOf (rows : List SourceRow) : (bookOf rows).1.length = rows.length := by
  simp [bookOf]

/-- The program of at most 128 rows with different opcodes has the tables of these rows. -/
theorem build_stepsOf {rows : List SourceRow} (hdistinct : DistinctOpcodes rows)
    (hlen : rows.length ≤ capacity) : (stepsOf rows).build = .ok (.ofRows rows) := by
  have hbook : AddressBook.empty.internAll (stepsOf rows).controls = bookOf rows := by
    simp [bookOf]
  have hopcodes : (stepsOf rows).opcodeTable = (RomSet.ofRows rows).opcodes :=
    ByteTable.ext_get fun o => by
      rw [get_opcodeTable_stepsOf hdistinct, RomSet.ofRows, ByteTable.get_ofFn]
  have hstates : (stepsOf rows).map (stepsOf rows).entryOf = (RomSet.ofRows rows).states := by
    refine List.ext_getElem? fun i => ?_
    rw [List.getElem?_map, getElem?_stepsOf, RomSet.ofRows, List.getElem?_mapIdx, Option.map_map]
    rcases Nat.lt_or_ge i rows.length with hi | hi
    · have hi' : i < (bookOf rows).1.length := length_bookOf rows ▸ hi
      rw [List.getElem?_eq_getElem hi, List.getElem?_eq_getElem hi', Option.map_some,
        Option.map_some, ← ofOwners_stepsOf hdistinct hi]
      simp only [Function.comp_apply, Program.entryOf, hbook, List.getD_eq_getElem?_getD,
        List.getElem?_eq_getElem hi', Option.getD_some]
    · rw [List.getElem?_eq_none hi, List.getElem?_eq_none (length_bookOf rows ▸ hi)]
      rfl
  rw [build_eq_ok (length_stepsOf rows ▸ hlen) (inPlace_stepsOf rows).position_lt, hbook, hopcodes,
    hstates]
  rfl

/-- A program with tables fits into the state table. -/
theorem build_ok_length {program : Program} {roms : RomSet} (h : program.build = .ok roms) :
    program.length ≤ capacity := by
  rw [Program.build] at h
  split at h
  · cases h
  · omega

/-- A source that compiles holds at most 128 rows with different opcodes. What it compiles to are
the program and the tables of these rows. -/
theorem Compilation.exists_rows_of_ok {source : Source} {roms : RomSet}
    (h : (Compilation.ofSource source).result = .ok roms) :
    ∃ rows, LinesSpell source.lines rows ∧ DistinctOpcodes rows ∧ rows.length ≤ capacity ∧
      (Compilation.ofSource source).program = stepsOf rows ∧ roms = .ofRows rows := by
  rw [ofSource] at h ⊢
  split at h
  · cases h
  · next r hread =>
    obtain ⟨rows, hspell, hdistinct, rfl⟩ := Reader.readLines_empty_eq_iff.mp hread
    have hprogram : (Reader.ofRows source.lines.length rows).program = stepsOf rows := rfl
    rw [hprogram] at h
    cases hbuild : (stepsOf rows).build with
    | error fault =>
      rw [hbuild] at h
      cases h
    | ok roms' =>
      have hlen : rows.length ≤ capacity := length_stepsOf rows ▸ build_ok_length hbuild
      rw [build_stepsOf hdistinct hlen] at h
      exact ⟨rows, hspell, hdistinct, hlen, hprogram, (Except.ok.inj h).symm⟩

/-- A source whose lines spell at most 128 rows with different opcodes compiles to their tables. -/
theorem Compilation.ofSource_of_linesSpell {source : Source} {rows : List SourceRow}
    (hspell : LinesSpell source.lines rows) (hdistinct : DistinctOpcodes rows)
    (hlen : rows.length ≤ capacity) :
    (Compilation.ofSource source).program = stepsOf rows ∧
      (Compilation.ofSource source).result = .ok (.ofRows rows) := by
  have hread : Reader.empty.read source = (Reader.ofRows source.lines.length rows, none) :=
    Reader.readLines_empty_eq_iff.mpr ⟨rows, hspell, hdistinct, rfl⟩
  have hprogram : (Reader.ofRows source.lines.length rows).program = stepsOf rows := rfl
  rw [ofSource, hread]
  refine ⟨hprogram, ?_⟩
  show (Reader.ofRows source.lines.length rows).program.build.mapError Fault.program = _
  rw [hprogram, build_stepsOf hdistinct hlen]
  rfl

/-- Whether a source compiles can be computed, without a look at the tables. -/
theorem Compilation.exists_ok_of_isSome {source : Source}
    (h : (Compilation.ofSource source).result.toOption.isSome) :
    ∃ roms, (Compilation.ofSource source).result = .ok roms := by
  cases hresult : (Compilation.ofSource source).result with
  | error fault =>
    rw [hresult] at h
    cases h
  | ok roms => exact ⟨roms, rfl⟩

/-! ### What the tables and their images hold -/

namespace RomSet

variable {rows : List SourceRow}

/-- Where all opcodes are different, an opcode leads to the row that has it. -/
theorem get_opcodes_ofRows_eq_some_iff (hdistinct : DistinctOpcodes rows) {o address : UInt8} :
    (ofRows rows).opcodes.get o = some address ↔
      ∃ p, opcodeAt rows p = some (some o) ∧ address = entryAddress p := by
  have hfind : ∀ p, (rows.findIdx? fun row => row.opcode = some o) = some p ↔
      opcodeAt rows p = some (some o) := by
    intro p
    rw [opcodeAt_eq_some_iff, List.findIdx?_eq_some_iff_getElem]
    constructor
    · intro h
      obtain ⟨hp, ho, -⟩ := h
      exact ⟨_, List.getElem?_eq_getElem hp, by simpa using ho⟩
    · intro h
      obtain ⟨row, hrow, ho⟩ := h
      obtain ⟨hp, rfl⟩ := List.getElem?_eq_some_iff.mp hrow
      refine ⟨hp, by simpa using ho, fun j hj hjo => ?_⟩
      have hji := hdistinct.index_inj (List.getElem?_eq_getElem (hj.trans hp)) hrow
        (by simpa using hjo) ho
      omega
  rw [ofRows, ByteTable.get_ofFn, Option.map_eq_some_iff]
  exact exists_congr fun p => and_congr (hfind p) eq_comm

/-- The image has the address of the row with the opcode. -/
theorem get_opcodeImage_ofRows (hdistinct : DistinctOpcodes rows) {i : Nat} {o : UInt8}
    (h : opcodeAt rows i = some (some o)) :
    (ofRows rows).opcodeImage.get o = entryAddress i := by
  have hget := (get_opcodes_ofRows_eq_some_iff hdistinct).mpr ⟨i, h, rfl⟩
  simp [opcodeImage, hget]

/-- An opcode that no row has is left at 0. -/
theorem get_opcodeImage_ofRows_eq_zero {o : UInt8} (h : ∀ i, opcodeAt rows i ≠ some (some o)) :
    (ofRows rows).opcodeImage.get o = 0 := by
  have hfind : (rows.findIdx? fun row => row.opcode = some o) = none := by
    refine List.findIdx?_eq_none_iff.mpr fun row hmem => ?_
    obtain ⟨i, hi⟩ := List.mem_iff_getElem?.mp hmem
    simpa [opcodeAt, hi] using h i
  simp [opcodeImage, ofRows, hfind]

/-- Each state has the control address of its row, and the state behind it. -/
theorem getElem?_states_ofRows (rows : List SourceRow) (i : Nat) :
    (ofRows rows).states[i]? = (bookOf rows).1[i]?.map fun address => ⟨address, nextOf rows i⟩ := by
  rw [ofRows, List.getElem?_mapIdx]

/-- There is one state for each row. -/
@[simp] theorem length_states_ofRows (rows : List SourceRow) :
    (ofRows rows).states.length = rows.length := by
  simp [ofRows]

/-- An entry leads to the state behind its row. -/
theorem next_of_states_ofRows {i : Nat} {entry : StateEntry}
    (hentry : (ofRows rows).states[i]? = some entry) : entry.next = nextOf rows i := by
  rw [getElem?_states_ofRows] at hentry
  obtain ⟨address, -, rfl⟩ := Option.map_eq_some_iff.mp hentry
  rfl

/-- The second byte of an entry stands for the state behind the row. There is none behind the
last row. -/
theorem get_stateImage_ofRows_succ {i : Nat} (hi : i < capacity) :
    (ofRows rows).stateImage.get (entryAddress i + 1) =
      if i < rows.length then (nextOf rows i).address else 0 := by
  rw [stateImage, get_pairImage_odd _ hi, List.getElem?_map, getElem?_states_ofRows]
  split
  · next hlt =>
    rw [List.getElem?_eq_getElem (length_bookOf rows ▸ hlt)]
    rfl
  · next hge =>
    rw [List.getElem?_eq_none (length_bookOf rows ▸ Nat.le_of_not_lt hge)]
    rfl

/-- The first byte of an entry leads to the control bytes of the row. -/
theorem get_controlImage_ofRows (hlen : rows.length ≤ capacity) {i : Nat} {row : SourceRow}
    (hrow : rows[i]? = some row) :
    (ofRows rows).controlImage.get ((ofRows rows).stateImage.get (entryAddress i)) =
        row.control.first ∧
      (ofRows rows).controlImage.get ((ofRows rows).stateImage.get (entryAddress i) + 1) =
        row.control.second := by
  obtain ⟨-, -, hpairs, hlocated⟩ :=
    AddressBook.internAll_spec AddressBook.numbered_empty (rows.map (·.control))
  obtain ⟨address, haddress, j, hj, rfl⟩ := hlocated i row.control (by simp [hrow])
  rw [← bookOf] at hpairs haddress hj
  have hi : i < rows.length := (List.getElem?_eq_some_iff.mp hrow).1
  -- There are at most as many pairs as rows, so the address of a pair does not wrap around.
  have hjlt : j < capacity := by
    have hjpairs := (List.getElem?_eq_some_iff.mp hj).1
    simp only [AddressBook.empty, List.length_nil, List.length_map] at hpairs hjpairs
    omega
  have hstate : (ofRows rows).stateImage.get (entryAddress i) = entryAddress j := by
    rw [stateImage, get_pairImage_even _ (hi.trans_le hlen), List.getElem?_map,
      getElem?_states_ofRows, haddress]
    rfl
  have hcontrols : (ofRows rows).controls[j]? = some row.control := hj
  constructor
  · rw [hstate, controlImage, get_pairImage_even _ hjlt, List.getElem?_map, hcontrols]
    rfl
  · rw [hstate, controlImage, get_pairImage_odd _ hjlt, List.getElem?_map, hcontrols]
    rfl

end RomSet

end ControlStore
