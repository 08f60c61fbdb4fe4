import ControlStore.Proofs.SessionTables

/-!
# `ControlStore.Proofs.OpcodeOwners`: opcodes, owners and continuations tell the same

The builder never looks at the opcodes of the steps to see where a sequence goes on. It compares
owners. In a session whose sources were all read to their end, this comes to the same: the owner of
a step is the opcode whose address is the last one at or before the step. So a step has the owner of
the step before it exactly when it carries no opcode, and the state of each step continues exactly
when the next step carries none (`RomSet.AgreesWith`).

`session_opcodes_agree` is the main theorem. Without a fault, the sources of a session are read like
the lines of all of them in one go (`Unstopped.readLines_eq`), so the program is that of the rows on
these lines. The opcodes of the rows are all different, and `agreesWith_ofRows` speaks of the tables
of such rows. A fault would break this: it can leave an opcode entered that no step carries, and
later steps are then owned by an opcode that is not in the table.
-/

set_option autoImplicit false

namespace ControlStore

/-- Step `p` carries the opcode `o`. -/
def Program.Opens (program : Program) (p : Nat) (o : UInt8) : Prop :=
  ∃ step, program[p]? = some step ∧ step.opcode = some o

/-- The opcode table, the owners and the continuations of a program fit together. -/
structure RomSet.AgreesWith (roms : RomSet) (program : Program) : Prop where
  /-- Each step names its own place. -/
  in_place : program.InPlace
  /-- An opcode is in the table exactly when one step carries it, with twice the place of this
  step as its address. -/
  opcode_iff : ∀ o address : UInt8, roms.opcodes.get o = some address ↔
    ∃ p, program.Opens p o ∧ (∀ q, program.Opens q o → q = p) ∧ address.toNat = 2 * p
  /-- No two opcodes have the same address. -/
  address_inj : ∀ o o' address : UInt8, roms.opcodes.get o = some address →
    roms.opcodes.get o' = some address → o = o'
  /-- The table has as many opcodes as there are steps with an opcode. -/
  length_filled : roms.opcodes.filled.length = program.countP (·.opcode.isSome)
  /-- A step is owned by the opcode whose address is the last one at or before the step. -/
  owner_iff : ∀ (i : Nat) (step : Step) (o : UInt8), program[i]? = some step →
    (step.owner = some o ↔ ∃ address, roms.opcodes.get o = some address ∧ address.toNat / 2 ≤ i ∧
      ∀ j, address.toNat / 2 < j → j ≤ i → ∀ o', ¬ program.Opens j o')
  /-- There is one state for each step. -/
  length_states : roms.states.length = program.length
  /-- A state continues exactly when there is a next step, and this step carries no opcode. -/
  continue_iff : ∀ (i : Nat) (entry : StateEntry), roms.states[i]? = some entry →
    ((∃ address, entry.next = .continueAt address) ↔
      ∃ step, program[i + 1]? = some step ∧ step.opcode = none)
  /-- A step has the owner of the step before it exactly when it carries no opcode. -/
  same_owner_iff : ∀ (i : Nat) (step next : Step), program[i]? = some step →
    program[i + 1]? = some next → (next.owner = step.owner ↔ next.opcode = none)

/-! ### Counting the filled cells of a table -/

/-- A table has as many filled cells as there are keys to it. -/
theorem ByteTable.length_filled_eq {α : Type} {t : ByteTable (Option α)} {keys : List UInt8}
    (hnodup : keys.Nodup) (hmem : ∀ b, b ∈ keys ↔ (t.get b).isSome = true) :
    t.filled.length = keys.length := by
  have hbytes : ((List.range 256).map UInt8.ofNat).Nodup := by
    refine List.Nodup.map_on ?_ List.nodup_range
    intro i hi j hj hij
    have hnat := congrArg UInt8.toNat hij
    rw [UInt8.toNat_ofNat', UInt8.toNat_ofNat', Nat.mod_eq_of_lt (List.mem_range.mp hi),
      Nat.mod_eq_of_lt (List.mem_range.mp hj)] at hnat
    exact hnat
  have hall : ∀ b : UInt8, b ∈ (List.range 256).map UInt8.ofNat := by
    intro b
    exact List.mem_map.mpr ⟨b.toNat, List.mem_range.mpr b.toNat_lt, UInt8.ofNat_toNat⟩
  -- The filled cells are those of the bytes whose cell is filled, each byte once.
  have hfilled : t.filled.length =
      (((List.range 256).map UInt8.ofNat).filter fun b => (t.get b).isSome).length := by
    rw [filled, List.length_filterMap_eq_countP, ← List.countP_eq_length_filter, List.countP_map]
    simp [Function.comp_def]
  have hperm : keys.Perm (((List.range 256).map UInt8.ofNat).filter fun b => (t.get b).isSome) := by
    refine (List.perm_ext_iff_of_nodup hnodup (hbytes.filter _)).mpr ?_
    intro b
    rw [List.mem_filter, hmem]
    exact (and_iff_right (hall b)).symm
  rw [hfilled, hperm.length_eq]

/-! ### The tables of some rows -/

section
variable {rows : List SourceRow}

/-- The steps of rows carry the opcodes of the rows. -/
theorem opens_stepsOf_iff {p : Nat} {o : UInt8} :
    (stepsOf rows).Opens p o ↔ opcodeAt rows p = some (some o) := by
  rw [Program.Opens, getElem?_stepsOf, opcodeAt]
  cases rows[p]? <;> simp

/-- A row without an opcode is a step that carries none. -/
theorem not_opens_stepsOf_iff {j : Nat} (hj : j < rows.length) :
    (∀ o, ¬ (stepsOf rows).Opens j o) ↔ Continuation rows j := by
  simp only [opens_stepsOf_iff, Continuation, opcodeAt, List.getElem?_eq_getElem hj,
    Option.map_some, Option.some.injEq]
  exact Option.eq_none_iff_forall_ne_some.symm

/-- The opcode fields of the steps are those of the rows, in order. -/
theorem opcodes_stepsOf (rows : List SourceRow) :
    (stepsOf rows).map (·.opcode) = rows.map (·.opcode) := by
  refine List.ext_getElem? fun i => ?_
  rw [List.getElem?_map, List.getElem?_map, getElem?_stepsOf, Option.map_map]
  rfl

namespace RomSet

/-- The rows with an opcode are counted in the opcode table. -/
theorem length_filled_ofRows (hdistinct : DistinctOpcodes rows) :
    (ofRows rows).opcodes.filled.length = (stepsOf rows).countP (·.opcode.isSome) := by
  have hcount : (stepsOf rows).countP (·.opcode.isSome) = (rows.filterMap (·.opcode)).length := by
    rw [List.length_filterMap_eq_countP]
    have hmap := congrArg (List.countP Option.isSome) (opcodes_stepsOf rows)
    simpa only [List.countP_map, Function.comp_def] using hmap
  rw [hcount]
  refine ByteTable.length_filled_eq hdistinct fun o => ?_
  simp [ofRows, List.findIdx?_isSome]

/-- A row continues exactly when the next row has no opcode. -/
theorem exists_nextOf_eq_continueAt_iff {i : Nat} :
    (∃ address, nextOf rows i = .continueAt address) ↔ Continuation rows (i + 1) := by
  unfold nextOf
  by_cases hcont : Continuation rows (i + 1)
  · rw [if_pos hcont]
    exact iff_of_true ⟨_, rfl⟩ hcont
  · rw [if_neg hcont]
    refine iff_of_false (fun h => ?_) hcont
    obtain ⟨address, h⟩ := h
    split at h <;> cases h

/-- The owner of a row can be read off the opcode table: it is the opcode whose address is the last
one at or before the row. -/
theorem ownerAt_eq_some_iff_address (hdistinct : DistinctOpcodes rows)
    (hlen : rows.length ≤ capacity) {i : Nat} (hi : i < rows.length) {o : UInt8} :
    ownerAt rows i = some o ↔
      ∃ address, (ofRows rows).opcodes.get o = some address ∧ address.toNat / 2 ≤ i ∧
        ∀ j, address.toNat / 2 < j → j ≤ i → ∀ o', ¬ (stepsOf rows).Opens j o' := by
  -- Half of an address is the place that it was made from.
  have hhalf : ∀ p, opcodeAt rows p = some (some o) → (entryAddress p).toNat / 2 = p := by
    intro p hp
    rw [toNat_entryAddress ((lt_length_of_opcodeAt hp).trans_le hlen)]
    omega
  rw [ownerAt_eq_some_iff hi]
  constructor
  · intro h
    obtain ⟨p, hpi, hp, hbetween⟩ := h
    refine ⟨entryAddress p, (get_opcodes_ofRows_eq_some_iff hdistinct).mpr ⟨p, hp, rfl⟩, ?_⟩
    rw [hhalf p hp]
    refine ⟨hpi, fun j hj hji => ?_⟩
    exact (not_opens_stepsOf_iff (by omega)).mpr (hbetween j hj hji)
  · intro h
    obtain ⟨address, hget, hpi, hbetween⟩ := h
    obtain ⟨p, hp, rfl⟩ := (get_opcodes_ofRows_eq_some_iff hdistinct).mp hget
    rw [hhalf p hp] at hpi hbetween
    refine ⟨p, hpi, hp, fun j hj hji => ?_⟩
    exact (not_opens_stepsOf_iff (by omega)).mp (hbetween j hj hji)

/-- The tables of at most 128 rows with different opcodes agree with the program of these rows. -/
theorem agreesWith_ofRows (hdistinct : DistinctOpcodes rows) (hlen : rows.length ≤ capacity) :
    (ofRows rows).AgreesWith (stepsOf rows) where
  in_place := inPlace_stepsOf rows
  opcode_iff o address := by
    simp only [get_opcodes_ofRows_eq_some_iff hdistinct, opens_stepsOf_iff]
    refine exists_congr fun p => and_congr_right fun hp => ?_
    have hlt : p < capacity := (lt_length_of_opcodeAt hp).trans_le hlen
    rw [and_iff_right fun q hq => hdistinct.opcodeAt_inj hq hp, ← toNat_entryAddress hlt,
      UInt8.toNat_inj]
  address_inj o o' address ho ho' := by
    obtain ⟨p, hp, haddress⟩ := (get_opcodes_ofRows_eq_some_iff hdistinct).mp ho
    obtain ⟨q, hq, haddress'⟩ := (get_opcodes_ofRows_eq_some_iff hdistinct).mp ho'
    have hplt : p < capacity := (lt_length_of_opcodeAt hp).trans_le hlen
    have hqlt : q < capacity := (lt_length_of_opcodeAt hq).trans_le hlen
    obtain rfl : p = q := (entryAddress_inj hplt hqlt).mp (haddress.symm.trans haddress')
    exact Option.some.inj (Option.some.inj (hp.symm.trans hq))
  length_filled := length_filled_ofRows hdistinct
  owner_iff i step o hstep := by
    rw [getElem?_stepsOf] at hstep
    obtain ⟨row, hrow, rfl⟩ := Option.map_eq_some_iff.mp hstep
    exact ownerAt_eq_some_iff_address hdistinct hlen (List.getElem?_eq_some_iff.mp hrow).1
  length_states := by simp
  continue_iff i entry hentry := by
    rw [next_of_states_ofRows hentry, exists_nextOf_eq_continueAt_iff, Continuation, opcodeAt,
      getElem?_stepsOf]
    cases rows[i + 1]? <;> simp
  same_owner_iff i step next hstep hnext := by
    rw [getElem?_stepsOf] at hstep hnext
    obtain ⟨row, hrow, rfl⟩ := Option.map_eq_some_iff.mp hstep
    obtain ⟨row', hrow', rfl⟩ := Option.map_eq_some_iff.mp hnext
    show ownerAt rows (i + 1) = ownerAt rows i ↔ row'.opcode = none
    rw [ownerAt_succ_eq_iff hdistinct (List.getElem?_eq_some_iff.mp hrow').1, Continuation,
      opcodeAt, hrow', Option.map_some, Option.some.injEq]

end RomSet

end

/-! ### Sessions without a fault -/

namespace Reader

/-- No source stops the reader, when it is given the sources one after another. -/
def Unstopped (sources : List Source) : Prop :=
  ∀ i (hi : i < sources.length), ((session (sources.take i)).read sources[i]).2 = none

instance (sources : List Source) : Decidable (Unstopped sources) :=
  inferInstanceAs (Decidable (∀ i (_ : i < sources.length), _))

/-- The last source of a session is read by the reader that the others leave. -/
theorem session_concat (sources : List Source) (source : Source) :
    session (sources ++ [source]) = ((session sources).read source).1 := by
  rw [session, readAll, List.foldl_append]
  rfl

/-- In a session that no source stops, the first sources do not stop it, and neither does the
last. -/
theorem Unstopped.of_concat {sources : List Source} {source : Source}
    (h : Unstopped (sources ++ [source])) :
    Unstopped sources ∧ ((session sources).read source).2 = none := by
  constructor
  · intro i hi
    have hread := h i (by rw [List.length_append]; omega)
    rwa [List.take_append_of_le_length (by omega), List.getElem_append_left hi] at hread
  · have hread := h sources.length (by simp)
    rwa [List.take_left', List.getElem_concat_length] at hread
    · rfl
    · rfl

/-- Without a fault, a session reads the lines of all its sources in one go. -/
theorem Unstopped.readLines_eq {sources : List Source} (h : Unstopped sources) :
    empty.readLines (sources.flatMap Source.lines) = (session sources, none) := by
  induction sources using List.reverseRecOn with
  | nil => rfl
  | append_singleton sources source ih =>
    obtain ⟨hbefore, hlast⟩ := h.of_concat
    rw [List.flatMap_append, List.flatMap_singleton, readLines_append, ih hbefore, session_concat]
    exact Prod.ext rfl hlast

/-- When all sources of a session were read to their end and the program has tables, these agree
with the opcodes and owners of its steps. The opcodes of the steps are those which the rows of the
sources have in their opcode fields. -/
theorem session_opcodes_agree (sources : List Source) (roms : RomSet) (h : Unstopped sources)
    (hbuild : (session sources).program.build = .ok roms) :
    roms.AgreesWith (session sources).program ∧
    ∃ rows, LinesSpell (sources.flatMap Source.lines) rows ∧
      (session sources).program.map (·.opcode) = rows.map (·.opcode) := by
  obtain ⟨rows, hspell, hdistinct, hreader⟩ := readLines_empty_eq_iff.mp h.readLines_eq
  have hprogram : (session sources).program = stepsOf rows := by rw [hreader]; rfl
  rw [hprogram] at hbuild ⊢
  have hlen : rows.length ≤ capacity := length_stepsOf rows ▸ build_ok_length hbuild
  rw [build_stepsOf hdistinct hlen] at hbuild
  rw [← Except.ok.inj hbuild]
  exact ⟨RomSet.agreesWith_ofRows hdistinct hlen, rows, hspell, opcodes_stepsOf rows⟩

/-- The lines `⇥A⇥1` and `5⇥B⇥2`, and in a second source `⇥C⇥3` and `6⇥A⇥1`. -/
def fiveThenSix : List Source :=
  [{ bytes := [9, 65, 9, 49, 10, 53, 9, 66, 9, 50, 10] },
   { bytes := [9, 67, 9, 51, 10, 54, 9, 65, 9, 49, 10] }]

/-- The first row has no owner, and the first row of the second source continues the sequence of the
source before. -/
theorem fiveThenSix_agree : Unstopped fiveThenSix ∧ ∃ roms,
    (session fiveThenSix).program.build = .ok roms ∧
      roms.AgreesWith (session fiveThenSix).program ∧
      ∃ rows, LinesSpell (fiveThenSix.flatMap Source.lines) rows ∧
        (session fiveThenSix).program.map (·.opcode) = rows.map (·.opcode) := by
  have hread : Unstopped fiveThenSix := by decide +kernel
  have hlen : (session fiveThenSix).program.length ≤ capacity := by decide +kernel
  have hpos : ∀ step ∈ (session fiveThenSix).program,
      step.position < (session fiveThenSix).program.length := by decide +kernel
  obtain ⟨roms, hbuild, -⟩ := Program.exists_tabulates hlen hpos
  exact ⟨hread, roms, hbuild, session_opcodes_agree fiveThenSix roms hread hbuild⟩

end Reader

end ControlStore
