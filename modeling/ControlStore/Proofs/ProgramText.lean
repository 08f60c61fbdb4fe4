import ControlStore.Proofs.Listing
import ControlStore.Proofs.Sequencer

/-!
# `ControlStore.Proofs.ProgramText`: what a listing tells about its program

Two sources with the same number of rows can differ in their spelling, in the lines of their rows,
in opcodes and in control bytes. `listing_eq_iff_sameCode` says which of these differences show in
the listing: those of control bytes, and those of opcodes behind the first row (`SameCode`).

The opcode of the first row does not show. Its sequence has the address 0, and so has an opcode
without a sequence. Every later opcode shows in the opcode image alone, as the one byte whose
address is that of its row (`get_opcodeImage_ofRows_eq_iff`). In the other direction, the tables
read the rows only through their control bytes and through the places of their opcodes.
-/

set_option autoImplicit false

namespace ControlStore

/-- The programs have the same control bytes in all of their steps, and the same opcodes, or none,
in all but the first. -/
structure SameCode (program program' : Program) : Prop where
  control : ∀ i < program.length, program[i]?.map (·.control) = program'[i]?.map (·.control)
  opcode : ∀ i < program.length, 0 < i →
    program[i]?.map (·.opcode) = program'[i]?.map (·.opcode)

/-- For programs of rows, these are the control bytes and opcodes of the rows. -/
theorem sameCode_stepsOf_iff {rows rows' : List SourceRow} (hlen : rows.length = rows'.length) :
    SameCode (stepsOf rows) (stepsOf rows') ↔
      rows.map (·.control) = rows'.map (·.control) ∧
      ∀ i, 0 < i → opcodeAt rows i = opcodeAt rows' i := by
  have hcontrol : ∀ (rows : List SourceRow) (i : Nat),
      (stepsOf rows)[i]?.map (·.control) = (rows.map (·.control))[i]? := fun rows i => by
    rw [← controls_stepsOf, Program.controls, List.getElem?_map]
  have hopcode : ∀ (rows : List SourceRow) (i : Nat),
      (stepsOf rows)[i]?.map (·.opcode) = opcodeAt rows i := fun rows i => by
    rw [getElem?_stepsOf, Option.map_map]
    rfl
  constructor
  · rintro ⟨hc, ho⟩
    rw [length_stepsOf] at hc ho
    refine ⟨List.ext_getElem? fun i => ?_, fun i hpos => ?_⟩
    all_goals rcases Nat.lt_or_ge i rows.length with hi | hi
    · rw [← hcontrol, ← hcontrol, hc i hi]
    · rw [List.getElem?_eq_none (by simpa using hi),
        List.getElem?_eq_none (by simpa [← hlen] using hi)]
    · rw [← hopcode, ← hopcode, ho i hi hpos]
    · rw [opcodeAt, opcodeAt, List.getElem?_eq_none hi, List.getElem?_eq_none (hlen ▸ hi)]
  · rintro ⟨hc, ho⟩
    exact ⟨fun i _ => by rw [hcontrol, hcontrol, hc],
      fun i _ hpos => by rw [hopcode, hopcode, ho i hpos]⟩

namespace RomSet

variable {rows rows' : List SourceRow}

/-- The image leads from an opcode to its row, unless this is the first row or there is none. -/
theorem get_opcodeImage_ofRows_cases (hdistinct : DistinctOpcodes rows) (o : UInt8) :
    (∃ i, 0 < i ∧ opcodeAt rows i = some (some o) ∧
      (ofRows rows).opcodeImage.get o = entryAddress i) ∨
    (∀ i, 0 < i → opcodeAt rows i ≠ some (some o)) ∧ (ofRows rows).opcodeImage.get o = 0 := by
  by_cases hused : ∃ i, opcodeAt rows i = some (some o)
  · obtain ⟨i, hi⟩ := hused
    have hget := get_opcodeImage_ofRows hdistinct hi
    rcases Nat.eq_zero_or_pos i with rfl | hpos
    -- The address of the first row is 0 as well.
    · exact Or.inr ⟨fun j hpos hj => Nat.ne_of_gt hpos (hdistinct.opcodeAt_inj hj hi), hget⟩
    · exact Or.inl ⟨i, hpos, hi, hget⟩
  · rw [not_exists] at hused
    exact Or.inr ⟨fun i _ => hused i, get_opcodeImage_ofRows_eq_zero hused⟩

/-- The opcode of a row behind the first can be read off the opcode image. -/
theorem get_opcodeImage_ofRows_eq_iff (hdistinct : DistinctOpcodes rows)
    (hlen : rows.length ≤ capacity) {i : Nat} (hpos : 0 < i) (hi : i < rows.length) (o : UInt8) :
    (ofRows rows).opcodeImage.get o = entryAddress i ↔ opcodeAt rows i = some (some o) := by
  refine ⟨fun h => ?_, get_opcodeImage_ofRows hdistinct⟩
  rcases get_opcodeImage_ofRows_cases hdistinct o with ⟨j, -, hj, hget⟩ | ⟨-, hget⟩
  · have hjlt := (lt_length_of_opcodeAt hj).trans_le hlen
    rw [hget, entryAddress_inj hjlt (hi.trans_le hlen)] at h
    exact h ▸ hj
  · exact absurd (Or.inl (h.symm.trans hget)) (not_stops_entryAddress hpos (hi.trans_le hlen))

/-- The images tell the control bytes of every row. -/
theorem control_eq_of_images_eq (hlen : rows.length ≤ capacity) (hlen' : rows'.length ≤ capacity)
    (hrows : rows.length = rows'.length)
    (hstate : (ofRows rows).stateImage = (ofRows rows').stateImage)
    (hcontrol : (ofRows rows).controlImage = (ofRows rows').controlImage) :
    rows.map (·.control) = rows'.map (·.control) := by
  refine List.ext_getElem (by simpa using hrows) fun i hi hi' => ?_
  rw [List.length_map] at hi hi'
  have hdriven := drivenAt_ofRows hlen (List.getElem?_eq_getElem hi)
  have hdriven' := drivenAt_ofRows hlen' (List.getElem?_eq_getElem hi')
  rw [List.getElem_map, List.getElem_map, ← hdriven, ← hdriven', drivenAt, drivenAt, hstate,
    hcontrol]

/-- The opcode image tells the opcode field of every row behind the first. -/
theorem opcodeAt_eq_of_opcodeImage_eq (hdistinct : DistinctOpcodes rows)
    (hdistinct' : DistinctOpcodes rows') (hlen : rows.length ≤ capacity)
    (hrows : rows.length = rows'.length)
    (hopcode : (ofRows rows).opcodeImage = (ofRows rows').opcodeImage) {i : Nat} (hpos : 0 < i) :
    opcodeAt rows i = opcodeAt rows' i := by
  rcases Nat.lt_or_ge i rows.length with hi | hi
  · have hi' : i < rows'.length := hrows ▸ hi
    have hiff : ∀ o, opcodeAt rows i = some (some o) ↔ opcodeAt rows' i = some (some o) := by
      intro o
      rw [← get_opcodeImage_ofRows_eq_iff hdistinct hlen hpos hi o,
        ← get_opcodeImage_ofRows_eq_iff hdistinct' (hrows ▸ hlen) hpos hi' o, hopcode]
    rw [opcodeAt, opcodeAt, List.getElem?_eq_getElem hi, List.getElem?_eq_getElem hi',
      Option.map_some, Option.map_some, Option.some.injEq]
    -- Two opcode fields are the same when they hold the same opcodes.
    refine Option.ext fun o => ?_
    simpa [opcodeAt, hi, hi'] using hiff o
  · rw [opcodeAt, opcodeAt, List.getElem?_eq_none hi, List.getElem?_eq_none (hrows ▸ hi)]

/-- The state table depends on the control bytes and on where opcodes stand behind the first row. -/
theorem states_ofRows_congr (hcontrol : rows.map (·.control) = rows'.map (·.control))
    (hopcode : ∀ i, 0 < i → opcodeAt rows i = opcodeAt rows' i) :
    (ofRows rows).states = (ofRows rows').states := by
  have hbook : bookOf rows = bookOf rows' := by rw [bookOf, bookOf, hcontrol]
  have hnext : ∀ i, nextOf rows i = nextOf rows' i := by
    intro i
    have hiff : Continuation rows (i + 1) ↔ Continuation rows' (i + 1) := by
      rw [Continuation, Continuation, hopcode (i + 1) (Nat.succ_pos i)]
    simp only [nextOf, hiff]
  simp only [ofRows, hbook, hnext]

/-- The opcode image depends on the opcodes behind the first row. -/
theorem opcodeImage_ofRows_congr (hdistinct : DistinctOpcodes rows)
    (hdistinct' : DistinctOpcodes rows')
    (hopcode : ∀ i, 0 < i → opcodeAt rows i = opcodeAt rows' i) :
    (ofRows rows).opcodeImage = (ofRows rows').opcodeImage := by
  refine ByteTable.ext_get fun o => ?_
  rcases get_opcodeImage_ofRows_cases hdistinct o with ⟨i, hpos, hi, hget⟩ | ⟨hnone, hget⟩
  · rw [hget, get_opcodeImage_ofRows hdistinct' (hopcode i hpos ▸ hi)]
  · rcases get_opcodeImage_ofRows_cases hdistinct' o with ⟨i, hpos, hi, -⟩ | ⟨-, hget'⟩
    · exact absurd ((hopcode i hpos).trans hi) (hnone i hpos)
    · rw [hget, hget']

/-- Two sources that compile to the same number of steps have the same listing exactly when they
agree in the control bytes of all steps and in the opcodes of all steps but the first. The steps are
those of the rows that the sources spell. -/
theorem listing_eq_iff_sameCode (source source' : Source) (roms roms' : RomSet)
    (h : (Compilation.ofSource source).result = .ok roms)
    (h' : (Compilation.ofSource source').result = .ok roms')
    (hsteps : (Compilation.ofSource source).program.length =
      (Compilation.ofSource source').program.length) :
    (roms.listing = roms'.listing ↔
      SameCode (Compilation.ofSource source).program (Compilation.ofSource source').program) ∧
    ∃ rows rows', LinesSpell source.lines rows ∧ LinesSpell source'.lines rows' ∧
      (Compilation.ofSource source).program = stepsOf rows ∧
      (Compilation.ofSource source').program = stepsOf rows' := by
  obtain ⟨rows, hspell, hdistinct, hlen, hprogram, rfl⟩ := Compilation.exists_rows_of_ok h
  obtain ⟨rows', hspell', hdistinct', hlen', hprogram', rfl⟩ := Compilation.exists_rows_of_ok h'
  refine ⟨?_, rows, rows', hspell, hspell', hprogram, hprogram'⟩
  rw [hprogram, hprogram'] at hsteps ⊢
  rw [length_stepsOf, length_stepsOf] at hsteps
  rw [listing_eq_iff, sameCode_stepsOf_iff hsteps]
  constructor
  · rintro ⟨hopcode, hstate, hcontrol⟩
    exact ⟨control_eq_of_images_eq hlen hlen' hsteps hstate hcontrol,
      fun i hpos => opcodeAt_eq_of_opcodeImage_eq hdistinct hdistinct' hlen hsteps hopcode hpos⟩
  · rintro ⟨hcontrol, hopcode⟩
    refine ⟨opcodeImage_ofRows_congr hdistinct hdistinct' hopcode, ?_, ?_⟩
    · rw [stateImage, stateImage, states_ofRows_congr hcontrol hopcode]
    · simp only [controlImage, ofRows, bookOf, hcontrol]

/-- The lines `A⇥1⇥2` and `B⇥3⇥4`. -/
def spelledWide : Source where
  bytes := [65, 9, 49, 9, 50, 10, 66, 9, 51, 9, 52, 10]

/-- The lines of `spelledWide` without the opcode of the first, in another spelling and with an
empty line between them. -/
def spelledOther : Source where
  bytes := [9, 48, 49, 9, 9, 50, 13, 10, 10, 98, 9, 51, 9, 52]

/-- Neither the spelling nor the first opcode shows. -/
theorem listing_spelledWide : ∃ roms roms' rows rows',
    (Compilation.ofSource spelledWide).result = .ok roms ∧
    (Compilation.ofSource spelledOther).result = .ok roms' ∧ roms.listing = roms'.listing ∧
    LinesSpell spelledWide.lines rows ∧ LinesSpell spelledOther.lines rows' ∧
    (Compilation.ofSource spelledWide).program = stepsOf rows ∧
    (Compilation.ofSource spelledOther).program = stepsOf rows' := by
  obtain ⟨roms, h⟩ : ∃ roms, (Compilation.ofSource spelledWide).result = .ok roms :=
    Compilation.exists_ok_of_isSome (by decide +kernel)
  obtain ⟨roms', h'⟩ : ∃ roms, (Compilation.ofSource spelledOther).result = .ok roms :=
    Compilation.exists_ok_of_isSome (by decide +kernel)
  have hsteps : (Compilation.ofSource spelledWide).program.length =
      (Compilation.ofSource spelledOther).program.length := by decide +kernel
  have hsame : SameCode (Compilation.ofSource spelledWide).program
      (Compilation.ofSource spelledOther).program := ⟨by decide +kernel, by decide +kernel⟩
  obtain ⟨hiff, rows, rows', hspell⟩ :=
    listing_eq_iff_sameCode spelledWide spelledOther roms roms' h h' hsteps
  exact ⟨roms, roms', rows, rows', h, h', hiff.mpr hsame, hspell⟩

end RomSet

end ControlStore
