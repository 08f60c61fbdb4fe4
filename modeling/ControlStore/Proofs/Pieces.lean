import ControlStore.Proofs.SourceLines
import ControlStore.Reader
import Mathlib.Data.List.Induction

/-!
# `ControlStore.Proofs.Pieces`: reading some data in pieces

Data can be cut anywhere and given to a reader in two pieces. When the cut is inside a line, the
first piece ends without a newline, and its end counts as a line. To read the same lines in one go,
a newline has to stand at the cut (`separator`).

* `exists_eq_append_unfinished`: data is whole lines and the beginning of a line.
* `bare_lines_append_separator_append`: with the separator, the lines of two pieces are the lines of
  the one and then those of the other, up to carriage returns at their ends.
* `readLines_congr_bare`: a reader does not see these carriage returns.
* `read_append_separator_append`: so reading both in one go is reading the second piece with the
  reader that the first one leaves, unless that one stopped it.

Nothing is asked of the reader, of the bytes or of the place of the cut. A line that is no valid
UTF-8 is none with and without a newline behind it. A line that ends in a carriage return loses it
to the newline, if there is one, and is read without it in any case.
-/

set_option autoImplicit false

namespace ControlStore

namespace Source

/-- The data is empty or ends in a newline. -/
def WholeLines (bytes : List UInt8) : Prop :=
  bytes = [] ∨ bytes.getLast? = some newline

instance (bytes : List UInt8) : Decidable (WholeLines bytes) :=
  inferInstanceAs (Decidable (_ ∨ _))

/-- What has to stand behind some data so that a line begins there. -/
def separator (bytes : List UInt8) : List UInt8 :=
  if WholeLines bytes then [] else [newline]

/-- Data is cut behind its last newline into whole lines and the beginning of a line. -/
theorem exists_eq_append_unfinished (bytes : List UInt8) :
    ∃ whole unfinished, bytes = whole ++ unfinished ∧ WholeLines whole ∧
      newline ∉ unfinished := by
  induction bytes using List.reverseRecOn with
  | nil => exact ⟨[], [], rfl, Or.inl rfl, List.not_mem_nil⟩
  | append_singleton bytes b ih =>
    by_cases hb : b = newline
    · subst hb
      exact ⟨bytes ++ [newline], [], by simp, Or.inr (by simp), List.not_mem_nil⟩
    · obtain ⟨whole, unfinished, hbytes, hwhole, hnot⟩ := ih
      refine ⟨whole, unfinished ++ [b], by rw [hbytes, List.append_assoc], hwhole, ?_⟩
      simpa [hnot] using Ne.symm hb

/-- What follows whole lines has its own lines. -/
theorem lines_append_of_wholeLines {whole : List UInt8} (h : WholeLines whole)
    (after : List UInt8) (failure : Option String) :
    lines ⟨whole ++ after, failure⟩ = lines { bytes := whole } ++ lines ⟨after, failure⟩ := by
  cases h with
  | inl hnil =>
    subst hnil
    rfl
  | inr hend => exact lines_append_of_terminated hend after failure

/-- The beginning of a line is read as a line. -/
theorem lines_unfinished {unfinished : List UInt8} (h : newline ∉ unfinished)
    (hne : unfinished ≠ []) : lines { bytes := unfinished } = [Line.ofBytes unfinished] := by
  have hsplit : unfinished.splitOn newline = [unfinished] := List.splitOn_eq_singleton h
  simp [lines, complete, rest, hsplit, hne]

/-- A newline behind an unfinished line adds no line. -/
theorem bare_lines_concat_newline {bytes : List UInt8} (h : ¬ WholeLines bytes) :
    (lines { bytes := bytes ++ [newline] }).map Line.bare = (lines { bytes }).map Line.bare := by
  obtain ⟨whole, unfinished, hbytes, hwhole, hnot⟩ := exists_eq_append_unfinished bytes
  have hne : unfinished ≠ [] := by
    intro hnil
    rw [hbytes, hnil, List.append_nil] at h
    exact h hwhole
  have hsplit : unfinished.splitOn newline = [unfinished] := List.splitOn_eq_singleton hnot
  rw [hbytes, List.append_assoc, lines_append_of_wholeLines hwhole,
    lines_append_of_wholeLines hwhole, lines_unfinished hnot hne, lines_concat_newline, hsplit]
  simp

/-- The separator adds no line to the first piece, and the second piece has its own lines. -/
theorem bare_lines_append_separator_append (first second : List UInt8)
    (failure : Option String) :
    (lines ⟨first ++ separator first ++ second, failure⟩).map Line.bare =
      (lines { bytes := first } ++ lines ⟨second, failure⟩).map Line.bare := by
  unfold separator
  split
  · next hwhole => rw [List.append_nil, lines_append_of_wholeLines hwhole]
  · next hwhole =>
    have hend : WholeLines (first ++ [newline]) := Or.inr (by simp)
    rw [lines_append_of_wholeLines hend, List.map_append, List.map_append,
      bare_lines_concat_newline hwhole]

end Source

namespace Reader

/-- A line is read without the carriage returns at its end. -/
theorem readLine_congr_bare (r : Reader) {line line' : Line} (h : line.bare = line'.bare) :
    r.readLine line = r.readLine line' := by
  cases line with
  | error cause =>
    cases line' with
    | error cause' => rw [Except.error.inj h]
    | ok text' => cases h
  | ok text =>
    cases line' with
    | error cause' => cases h
    | ok text' =>
      -- The text is only given to `Row.ofLine?`, which drops them first.
      have hrow : Row.ofLine? text = Row.ofLine? text' := by
        rw [Row.ofLine?, Except.ok.inj h, Row.ofLine?]
      simp only [readLine, hrow]

/-- Lines with the same content are read to the same result. -/
theorem readLines_congr_bare (r : Reader) {lines lines' : List Line}
    (h : lines.map Line.bare = lines'.map Line.bare) : r.readLines lines = r.readLines lines' := by
  induction lines generalizing r lines' with
  | nil =>
    obtain rfl := List.map_eq_nil_iff.mp h.symm
    rfl
  | cons line lines ih =>
    obtain ⟨line', rest, rfl, hline, hrest⟩ := List.map_eq_cons_iff.mp h.symm
    rw [readLines, readLines, r.readLine_congr_bare hline]
    rcases r.readLine line with ⟨r', _ | fault⟩
    · exact ih r' hrest.symm
    · rfl

/-- Data in two pieces, with a newline at the cut if the first piece needs one. When the first
piece is read to its end, reading both in one go is reading the second with the reader that the
first leaves. When the first piece stops the reader, reading both in one go reports the same fault
and leaves the same reader. -/
theorem read_append_separator_append (r : Reader) (first second : List UInt8) :
    (∀ r', r.read { bytes := first } = (r', none) →
      r.read { bytes := first ++ Source.separator first ++ second } =
        r'.read { bytes := second }) ∧
    ∀ r' fault, r.read { bytes := first } = (r', some fault) →
      r.read { bytes := first ++ Source.separator first ++ second } = (r', some fault) := by
  unfold read
  rw [r.readLines_congr_bare (Source.bare_lines_append_separator_append first second none),
    readLines_append]
  constructor
  · intro r' hread
    rw [hread]
  · intro r' fault hread
    rw [hread]

end Reader

end ControlStore
