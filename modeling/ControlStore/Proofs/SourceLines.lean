import ControlStore.Proofs.Trim
import ControlStore.Source

/-!
# `ControlStore.Proofs.SourceLines`: cutting a source behind a newline

Data that ends in a newline has one line for each newline in it (`length_lines_of_terminated`), and
what follows it has its own lines (`lines_append_of_terminated`). So nothing that is behind a line
takes part in it.

A line with its newline loses a carriage return that the same line keeps without the newline. Both
have the same content in the sense of `Line.bare`, which has no carriage returns at its end.
-/

set_option autoImplicit false

namespace ControlStore

/-! ### Carriage returns at the end of a line -/

/-- A carriage return that belongs to the line ending is one of those at the end of the line. -/
@[simp] theorem Text.dropTrailing_dropReturn (s : List Char) :
    dropTrailing (· = '\r') (dropReturn s) = dropTrailing (· = '\r') s := by
  unfold dropReturn
  split
  · next hlast =>
    obtain ⟨t, rfl⟩ := List.getLast?_eq_some_iff.mp hlast
    rw [List.dropLast_concat, dropTrailing_append t (by simp)]
  · rfl

/-- The line without the carriage returns at its end. -/
def Line.bare (line : Line) : Line :=
  line.map (Text.dropTrailing (· = '\r'))

/-- A newline behind a line makes no difference to its content. -/
@[simp] theorem Line.bare_ofTerminated (bytes : List UInt8) :
    (Line.ofTerminated bytes).bare = (Line.ofBytes bytes).bare := by
  unfold ofTerminated
  cases Line.ofBytes bytes with
  | error cause => rfl
  | ok s => exact congrArg Except.ok (Text.dropTrailing_dropReturn s)

namespace Source

/-! ### The lines of some data -/

/-- There is one part more than there are newlines. -/
theorem length_splitOn_newline (bytes : List UInt8) :
    (bytes.splitOn newline).length = bytes.count newline + 1 := by
  induction bytes with
  | nil => rfl
  | cons b bytes ih =>
    rw [List.splitOn_cons_eq_if_modifyHead, List.count_cons]
    by_cases h : (b == newline) = true
    · rw [if_pos h, if_pos h, List.length_cons, ih]
    · rw [if_neg h, if_neg h, List.length_modifyHead, ih]

/-- Data that is cut at its newlines has no newline in any of the parts. -/
theorem newline_not_mem_of_mem_splitOn {bytes part : List UInt8}
    (h : part ∈ bytes.splitOn newline) : newline ∉ part := by
  induction bytes generalizing part with
  | nil =>
    obtain rfl := List.mem_singleton.mp h
    exact List.not_mem_nil
  | cons b bytes ih =>
    rw [List.splitOn_cons_eq_if_modifyHead] at h
    split at h
    · rcases List.mem_cons.mp h with rfl | hmem
      · exact List.not_mem_nil
      · exact ih hmem
    · next hb =>
      -- The byte goes to the first part, and there is always a first part.
      obtain ⟨first, rest, hsplit⟩ :=
        List.exists_cons_of_ne_nil (List.splitOn_ne_nil newline bytes)
      rw [hsplit, List.modifyHead_cons] at h
      rcases List.mem_cons.mp h with rfl | hmem
      · have hfirst : newline ∉ first := ih (by rw [hsplit]; exact List.mem_cons_self)
        have hne : newline ≠ b := fun heq => hb (by simp [heq])
        simp [hne, hfirst]
      · exact ih (by rw [hsplit]; exact List.mem_cons_of_mem first hmem)

/-- There is no newline in a complete line. -/
theorem newline_not_mem_of_mem_complete {s : Source} {line : List UInt8} (h : line ∈ s.complete) :
    newline ∉ line :=
  newline_not_mem_of_mem_splitOn ((List.dropLast_sublist _).subset h)

/-- There is no newline behind the last newline. -/
theorem newline_not_mem_rest (s : Source) : newline ∉ s.rest := by
  have hne := List.splitOn_ne_nil newline s.bytes
  have hlast : s.rest = (s.bytes.splitOn newline).getLast hne := by
    rw [rest, List.getLastD_eq_getLast?, List.getLast?_eq_getLast_of_ne_nil hne]
    rfl
  exact newline_not_mem_of_mem_splitOn (hlast ▸ List.getLast_mem hne)

/-- The complete lines of data that ends in a newline are all its lines. -/
theorem lines_concat_newline (bytes : List UInt8) :
    lines { bytes := bytes ++ [newline] } = (bytes.splitOn newline).map Line.ofTerminated := by
  have hsplit : (bytes ++ [newline]).splitOn newline = bytes.splitOn newline ++ [[]] :=
    List.splitOn_append_cons_self bytes []
  simp [lines, complete, rest, hsplit]

/-- Data that ends in a newline has one line for each newline. -/
theorem length_lines_of_terminated {bytes : List UInt8} (h : bytes.getLast? = some newline) :
    (lines { bytes }).length = bytes.count newline := by
  obtain ⟨bytes, rfl⟩ := List.getLast?_eq_some_iff.mp h
  rw [lines_concat_newline, List.length_map, length_splitOn_newline, List.count_append,
    List.count_singleton_self]

/-- The lines of data behind a newline are appended to those before it. -/
theorem lines_append_of_terminated {before : List UInt8} (h : before.getLast? = some newline)
    (after : List UInt8) (failure : Option String) :
    lines ⟨before ++ after, failure⟩ = lines { bytes := before } ++ lines ⟨after, failure⟩ := by
  obtain ⟨before, rfl⟩ := List.getLast?_eq_some_iff.mp h
  -- The two parts are split each for itself, because a newline stands between them.
  have hsplit : (before ++ [newline] ++ after).splitOn newline
      = before.splitOn newline ++ after.splitOn newline := by
    rw [List.append_assoc]
    exact List.splitOn_append_cons_self before after
  have hne : after.splitOn newline ≠ [] := List.splitOn_ne_nil newline after
  have hcomplete : complete ⟨before ++ [newline] ++ after, failure⟩
      = before.splitOn newline ++ complete ⟨after, failure⟩ := by
    rw [complete, hsplit, List.dropLast_append_of_ne_nil hne, complete]
  have hrest : rest ⟨before ++ [newline] ++ after, failure⟩ = rest ⟨after, failure⟩ := by
    rw [rest, hsplit, List.getLastD_eq_getLast?, List.getLast?_append_of_ne_nil _ hne, rest,
      List.getLastD_eq_getLast?]
  rw [lines_concat_newline, lines, hcomplete, hrest, List.map_append, List.append_assoc]
  rfl

end Source

end ControlStore
