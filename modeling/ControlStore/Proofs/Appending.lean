import ControlStore.Proofs.Pieces
import ControlStore.Proofs.Tables

/-!
# `ControlStore.Proofs.Appending`: more rows at the end of a source

Rows that are appended to a source leave the code of the rows before them where it is. Their control
bytes, opcodes and addresses stay, and so does each state but the last. This one ended the program,
and may now continue into the first appended row.

* `Source.BetweenLines head tail`: data is cut between two of its lines.
* `RomSet.Extends`: how the tables of the whole compare with those of the head.
* `ofSource_append_extends`: when the whole source compiles, so does its head, and the tables of the
  whole extend those of the head.

The rows of the head are the first rows of the whole (`LinesSpell.exists_append`), so everything is
about `RomSet.ofRows` of some rows and of these rows with others behind them. An address book that
takes more pairs keeps the addresses that it has given away (`AddressBook.internAll_append`).
-/

set_option autoImplicit false

namespace ControlStore

/-! ### Cutting between two lines -/

namespace Source

/-- The data is cut at its beginning, at its end, or at a newline, in front of it or behind it. -/
def BetweenLines (head tail : List UInt8) : Prop :=
  WholeLines head ∨ tail = [] ∨ tail.head? = some newline

instance (head tail : List UInt8) : Decidable (BetweenLines head tail) :=
  inferInstanceAs (Decidable (_ ∨ _ ∨ _))

/-- The lines of the head are the first lines of the whole, up to a carriage return in front of the
cut. -/
theorem BetweenLines.bare_lines_append {head tail : List UInt8} (h : BetweenLines head tail) :
    (lines { bytes := head }).map Line.bare <+:
      (lines { bytes := head ++ tail }).map Line.bare := by
  by_cases hwhole : WholeLines head
  · rw [lines_append_of_wholeLines hwhole, List.map_append]
    exact List.prefix_append _ _
  · rcases (or_iff_right hwhole).mp h with rfl | hnewline
    · simp
    · -- The newline behind the head only completes its last line.
      obtain ⟨tail, rfl⟩ := List.head?_eq_some_iff.mp hnewline
      have hend : WholeLines (head ++ [newline]) := Or.inr (by simp)
      rw [← List.singleton_append, ← List.append_assoc, lines_append_of_wholeLines hend,
        List.map_append, bare_lines_concat_newline hwhole]
      exact List.prefix_append _ _

end Source

/-! ### The rows of the head -/

/-- The rows of some lines are the first of the rows that these lines spell with others behind. -/
theorem LinesSpell.exists_append {first later : List Line} {rows : List SourceRow}
    (h : LinesSpell (first ++ later) rows) :
    ∃ before after, rows = before ++ after ∧ LinesSpell first before := by
  induction later using List.reverseRecOn generalizing rows with
  | nil =>
    rw [List.append_nil] at h
    exact ⟨rows, [], (List.append_nil rows).symm, h⟩
  | append_singleton later line ih =>
    rw [← List.append_assoc] at h
    rcases linesSpell_concat_iff.mp h with ⟨_, -, -, hrest⟩ | ⟨_, _, _, rows', -, -, hrest, rfl⟩
    · exact ih hrest
    · obtain ⟨before, after, rfl, hbefore⟩ := ih hrest
      exact ⟨before, _, List.append_assoc _ _ _, hbefore⟩

/-- Rows whose opcodes are all different have no repeated opcode in their first part either. -/
theorem DistinctOpcodes.of_append_left {rows more : List SourceRow}
    (h : DistinctOpcodes (rows ++ more)) : DistinctOpcodes rows := by
  rw [DistinctOpcodes, List.filterMap_append] at h
  exact h.of_append_left

/-- Steps do not change when more rows follow. -/
theorem stepsOf_prefix_append (rows more : List SourceRow) :
    stepsOf rows <+: stepsOf (rows ++ more) := by
  induction more using List.reverseRecOn with
  | nil => simp
  | append_singleton more row ih =>
    rw [← List.append_assoc, stepsOf_concat]
    exact ih.trans (List.prefix_append _ _)

/-! ### The tables of more rows -/

/-- What tables hold of the first rows of a program, compared with the tables of these rows
alone. -/
structure RomSet.Extends (roms first : RomSet) (program start : Program) : Prop where
  /-- The steps are the first ones of the program. -/
  steps : start <+: program
  /-- The control table only grows at its end. -/
  controls : first.controls <+: roms.controls
  /-- There is one state for each step. -/
  length_states : first.states.length = start.length ∧ roms.states.length = program.length
  /-- Each state keeps the address of its control bytes. -/
  control_address : ∀ (i : Nat) (entry entry' : StateEntry), first.states[i]? = some entry →
    roms.states[i]? = some entry' → entry'.controlAddress = entry.controlAddress
  /-- Each state but the last keeps what follows it. -/
  next : ∀ (i : Nat) (entry entry' : StateEntry), i + 1 < start.length →
    first.states[i]? = some entry → roms.states[i]? = some entry' → entry'.next = entry.next
  /-- The last state ended its sequence, and may now continue into the step behind it. -/
  last : ∀ (i : Nat) (entry entry' : StateEntry), i + 1 = start.length →
    first.states[i]? = some entry → roms.states[i]? = some entry' →
    entry.next = (if start.length = 3 then .fetchComplete else .dispatch) ∧
      (entry'.next = entry.next ∨
        ∃ address, entry'.next = .continueAt address ∧ address.toNat = 2 * start.length)
  /-- Each opcode keeps its address. -/
  opcode_kept : ∀ o address : UInt8, first.opcodes.get o = some address →
    roms.opcodes.get o = some address
  /-- The address of a further opcode is behind all of the first steps. -/
  opcode_new : ∀ o address : UInt8, first.opcodes.get o = none →
    roms.opcodes.get o = some address → 2 * start.length ≤ address.toNat

section
variable {rows more : List SourceRow} {i : Nat}

/-- Rows behind a row do not touch its opcode field. -/
theorem opcodeAt_append_of_lt (hi : i < rows.length) :
    opcodeAt (rows ++ more) i = opcodeAt rows i := by
  rw [opcodeAt, List.getElem?_append_left hi, opcodeAt]

/-- What follows a row depends on the next row, and on no later one. -/
theorem nextOf_append_of_lt (hi : i + 1 < rows.length) :
    nextOf (rows ++ more) i = nextOf rows i := by
  have hiff : Continuation (rows ++ more) (i + 1) ↔ Continuation rows (i + 1) := by
    rw [Continuation, Continuation, opcodeAt_append_of_lt hi]
  simp only [nextOf, hiff]

/-- Behind the last row there is no row that could continue it. -/
theorem not_continuation_length (rows : List SourceRow) : ¬ Continuation rows rows.length :=
  fun h => Nat.lt_irrefl _ (lt_length_of_opcodeAt h)

/-- The last row is followed by no other, so its sequence ends. -/
theorem nextOf_last (hi : i + 1 = rows.length) :
    nextOf rows i = if rows.length = 3 then .fetchComplete else .dispatch := by
  rw [nextOf, hi, if_neg (not_continuation_length rows), fetchLength]

/-- With rows behind it, the last row is followed as before, or continues into the first of them. -/
theorem nextOf_append_last (hi : i + 1 = rows.length) :
    nextOf (rows ++ more) i = nextOf rows i ∨
      nextOf (rows ++ more) i = .continueAt (entryAddress rows.length) := by
  by_cases hcont : Continuation (rows ++ more) (i + 1)
  · exact Or.inr (by rw [nextOf, if_pos hcont, hi])
  · refine Or.inl ?_
    rw [nextOf, if_neg hcont, nextOf_last hi, hi, fetchLength]

namespace RomSet

/-- The pairs of further rows are listed behind those that the table already has. -/
theorem controls_ofRows_prefix_append (rows more : List SourceRow) :
    (ofRows rows).controls <+: (ofRows (rows ++ more)).controls := by
  obtain ⟨hnumbered, -, -, -⟩ :=
    AddressBook.internAll_spec AddressBook.numbered_empty (rows.map (·.control))
  obtain ⟨-, hprefix, -, -⟩ := AddressBook.internAll_spec hnumbered (more.map (·.control))
  show (bookOf rows).2.pairs <+: (bookOf (rows ++ more)).2.pairs
  rw [bookOf, bookOf, List.map_append, AddressBook.internAll_append]
  exact hprefix

/-- A row keeps the address of its control bytes when others follow. -/
theorem controlAddress_states_ofRows_append {entry entry' : StateEntry}
    (h : (ofRows rows).states[i]? = some entry)
    (h' : (ofRows (rows ++ more)).states[i]? = some entry') :
    entry'.controlAddress = entry.controlAddress := by
  rw [getElem?_states_ofRows] at h h'
  obtain ⟨address, haddress, rfl⟩ := Option.map_eq_some_iff.mp h
  obtain ⟨address', haddress', rfl⟩ := Option.map_eq_some_iff.mp h'
  have hi : i < (bookOf rows).1.length := (List.getElem?_eq_some_iff.mp haddress).1
  rw [bookOf, List.map_append, AddressBook.internAll_append, ← bookOf,
    List.getElem?_append_left hi] at haddress'
  exact Option.some.inj (haddress'.symm.trans haddress)

/-- An opcode has its address in the first rows, or else in the rows behind them, counted from the
start. -/
theorem get_opcodes_ofRows_append (rows more : List SourceRow) (o : UInt8) :
    (ofRows (rows ++ more)).opcodes.get o =
      ((ofRows rows).opcodes.get o).or
        ((more.findIdx? fun row => row.opcode = some o).map
          fun j => entryAddress (j + rows.length)) := by
  simp only [ofRows, ByteTable.get_ofFn, List.findIdx?_append, Option.map_or, Option.map_map]
  rfl

/-- The tables of some rows are extended when more rows are appended. -/
theorem extends_ofRows_append (hlen : (rows ++ more).length ≤ capacity) :
    (ofRows (rows ++ more)).Extends (ofRows rows) (stepsOf (rows ++ more)) (stepsOf rows) where
  steps := stepsOf_prefix_append rows more
  controls := controls_ofRows_prefix_append rows more
  length_states := by simp
  control_address i entry entry' h h' := controlAddress_states_ofRows_append h h'
  next i entry entry' hi h h' := by
    rw [length_stepsOf] at hi
    rw [next_of_states_ofRows h, next_of_states_ofRows h', nextOf_append_of_lt hi]
  last i entry entry' hi h h' := by
    rw [length_stepsOf] at hi ⊢
    rw [next_of_states_ofRows h, next_of_states_ofRows h']
    refine ⟨nextOf_last hi, ?_⟩
    rcases @nextOf_append_last rows more i hi with hsame | hcontinues
    · exact Or.inl hsame
    · -- A continuation is a further row, so there is one within the capacity.
      have hlt : rows.length < capacity := by
        by_contra hfull
        have hmore : more = [] := List.length_eq_zero_iff.mp (by
          rw [List.length_append] at hlen
          omega)
        rw [hmore, List.append_nil, nextOf_last hi] at hcontinues
        split at hcontinues <;> cases hcontinues
      exact Or.inr ⟨_, hcontinues, toNat_entryAddress hlt⟩
  opcode_kept o address h := by
    rw [get_opcodes_ofRows_append, h, Option.some_or]
  opcode_new o address h h' := by
    rw [get_opcodes_ofRows_append, h, Option.none_or] at h'
    obtain ⟨j, hj, rfl⟩ := Option.map_eq_some_iff.mp h'
    have hjlt : j < more.length := (List.findIdx?_eq_some_iff_getElem.mp hj).1
    rw [List.length_append] at hlen
    rw [length_stepsOf, toNat_entryAddress (by omega)]
    omega

end RomSet

end

namespace RomSet

/-- When a source compiles, so does its part in front of any of its lines. The lines behind this
part move nothing: they change the state of its last step at most, and put all else behind it. -/
theorem ofSource_append_extends (head tail : List UInt8) (roms : RomSet)
    (hcut : Source.BetweenLines head tail)
    (h : (Compilation.ofSource { bytes := head ++ tail }).result = .ok roms) :
    ∃ first, (Compilation.ofSource { bytes := head }).result = .ok first ∧
      roms.Extends first (Compilation.ofSource { bytes := head ++ tail }).program
        (Compilation.ofSource { bytes := head }).program := by
  obtain ⟨rows, hspell, hdistinct, hlen, hprogram, rfl⟩ := Compilation.exists_rows_of_ok h
  obtain ⟨later, hlines⟩ := hcut.bare_lines_append
  obtain ⟨first, rest, hsplit, hfirst, -⟩ := List.append_eq_map_iff.mp hlines
  rw [hsplit] at hspell
  obtain ⟨before, after, rfl, hspell'⟩ := hspell.exists_append
  have hbefore := (linesSpell_congr_bare hfirst).mp hspell'
  have hlen' : before.length ≤ capacity := by
    rw [List.length_append] at hlen
    omega
  obtain ⟨hstart, hfirst⟩ :=
    Compilation.ofSource_of_linesSpell hbefore hdistinct.of_append_left hlen'
  refine ⟨_, hfirst, ?_⟩
  rw [hprogram, hstart]
  exact extends_ofRows_append hlen

/-- The lines `⇥A⇥1`, `⇥B⇥2` and `⇥A⇥1`, the last without its newline. -/
def threeLines : List UInt8 :=
  [9, 65, 9, 49, 10, 9, 66, 9, 50, 10, 9, 65, 9, 49]

/-- The newline of the last line, and the lines `⇥B⇥2` and `5⇥C⇥3`. -/
def twoMoreLines : List UInt8 :=
  [10, 9, 66, 9, 50, 10, 53, 9, 67, 9, 51, 10]

/-- The cut is in front of the newline of the third row. The state of this row goes from the end of
the fetch to a continuation. -/
theorem threeLines_extended : Source.BetweenLines threeLines twoMoreLines ∧
    ∃ roms, (Compilation.ofSource { bytes := threeLines ++ twoMoreLines }).result = .ok roms ∧
      ∃ first, (Compilation.ofSource { bytes := threeLines }).result = .ok first ∧
        roms.Extends first (Compilation.ofSource { bytes := threeLines ++ twoMoreLines }).program
          (Compilation.ofSource { bytes := threeLines }).program := by
  have hcut : Source.BetweenLines threeLines twoMoreLines := by decide
  obtain ⟨roms, h⟩ : ∃ roms,
      (Compilation.ofSource { bytes := threeLines ++ twoMoreLines }).result = .ok roms :=
    Compilation.exists_ok_of_isSome (by decide +kernel)
  exact ⟨hcut, roms, h, ofSource_append_extends threeLines twoMoreLines roms hcut h⟩

end RomSet

end ControlStore
