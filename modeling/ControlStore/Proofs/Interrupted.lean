import ControlStore.Proofs.Pieces

/-!
# `ControlStore.Proofs.Interrupted`: a stream that fails while it is read

A stream can fail at any place, also in the middle of a line. What it has delivered by then is cut
behind the last newline. The lines in front of the cut are complete, and they are read as if the
stream had ended there. The bytes behind the cut are lost, whatever they are. They may be a row in
all but its newline, or no text at all.

* `longestWhole_append`: the place of the cut. No longer part of the data ends in a newline.
* `lines_append_interrupted`: the lines of such a stream. The failure stands in the place of the
  unfinished line, so it takes one line number, also when the data ends in a newline.
* `read_interrupted`: a fault in the complete lines comes before the failure and hides it. Without
  one, the failure is reported at the next line, and counting that line is all that it does.
-/

set_option autoImplicit false

namespace ControlStore

namespace Source

/-- `whole` is the longest part at the front of the data that is empty or ends in a newline. -/
structure LongestWhole (bytes whole : List UInt8) : Prop where
  /-- It stands at the front of the data. -/
  front : whole <+: bytes
  /-- It is empty or ends in a newline. -/
  wholeLines : WholeLines whole
  /-- No longer part does. -/
  longest : ∀ other, other <+: bytes → WholeLines other → other.length ≤ whole.length

/-- Whole lines with a part behind them that has no newline are the longest such lines. -/
theorem longestWhole_append {whole unfinished : List UInt8} (hwhole : WholeLines whole)
    (hnot : newline ∉ unfinished) : LongestWhole (whole ++ unfinished) whole where
  front := List.prefix_append whole unfinished
  wholeLines := hwhole
  longest := by
    intro other hother hlines
    rcases Nat.le_total other.length whole.length with hle | hge
    · exact hle
    · -- A longer part reaches into the unfinished line and would have to end there.
      obtain ⟨reach, rfl⟩ :=
        List.prefix_of_prefix_length_le (List.prefix_append whole unfinished) hother hge
      have hreach : reach <+: unfinished := (List.prefix_append_right_inj whole).mp hother
      cases hlines with
      | inl hnil => simp [hnil]
      | inr hend =>
        by_cases hne : reach = []
        · simp [hne]
        · rw [List.getLast?_append_of_ne_nil whole hne] at hend
          exact absurd (hreach.subset (List.mem_of_getLast? hend)) hnot

/-- The lines of a stream that fails: the complete ones, and then the failure. -/
theorem lines_append_interrupted {whole unfinished : List UInt8} (hwhole : WholeLines whole)
    (hnot : newline ∉ unfinished) (reason : String) :
    lines ⟨whole ++ unfinished, some reason⟩ =
      lines { bytes := whole } ++ [.error (.interrupted reason)] := by
  have hsplit : unfinished.splitOn newline = [unfinished] := List.splitOn_eq_singleton hnot
  have hlost : lines ⟨unfinished, some reason⟩ = [.error (.interrupted reason)] := by
    simp [lines, complete, hsplit]
  rw [lines_append_of_wholeLines hwhole, hlost]

end Source

namespace Reader

/-- A line that was not delivered is counted and reported, and leaves all else as it is. -/
theorem readLine_interrupted (r : Reader) (reason : String) :
    r.readLine (.error (.interrupted reason)) =
      ({ r with line := r.line + 1 },
        some (.badLine (r.line + 1) (.unreadable (.interrupted reason)))) :=
  rfl

/-- A stream that delivers some data and then fails, read by any reader. Let `whole` be the longest
part at the front of the data that is empty or ends in a newline. When `whole` has a fault, the
failing stream has the same fault and leaves the same reader. When `whole` is read to its end, the
failure is reported at the line behind it, and the reader is that of `whole` with one more line
counted. What the stream delivered behind `whole` plays no part. -/
theorem read_interrupted (r : Reader) (bytes : List UInt8) (reason : String) :
    ∃ whole, Source.LongestWhole bytes whole ∧
      (∀ r' fault, r.read { bytes := whole } = (r', some fault) →
        r.read ⟨bytes, some reason⟩ = (r', some fault)) ∧
      ∀ r', r.read { bytes := whole } = (r', none) →
        ∃ cause, cause.message = "Failed to read line: " ++ reason ∧
          r.read ⟨bytes, some reason⟩ =
            ({ r' with line := r'.line + 1 }, some (.badLine (r'.line + 1) cause)) := by
  obtain ⟨whole, unfinished, rfl, hwhole, hnot⟩ := Source.exists_eq_append_unfinished bytes
  refine ⟨whole, Source.longestWhole_append hwhole hnot, ?_⟩
  -- The failing stream is read as `whole`, and then comes the one line that stands for the failure.
  unfold read
  rw [Source.lines_append_interrupted hwhole hnot, readLines_append]
  constructor
  · intro r' fault hfault
    rw [hfault]
  · intro r' hnone
    rw [hnone]
    show ∃ cause, _ ∧ r'.readLines [.error (.interrupted reason)] = _
    rw [readLines_singleton, readLine_interrupted]
    exact ⟨.unreadable (.interrupted reason), rfl, rfl⟩

end Reader

end ControlStore
