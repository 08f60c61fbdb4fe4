import ControlStore.Proofs.Hex
import ControlStore.Text.Blank
import Mathlib.Data.List.DropRight

/-!
# `ControlStore.Proofs.Trim`: what dropping characters at the ends leaves

`Text.dropTrailing` and `Text.trim` are stated here through the text they are applied to: the text
is what they leave with droppable characters around it.

* `dropTrailing_eq_iff`: the part that is left, in one statement. It ends in a character that is
  not dropped, and only droppable characters follow it.
* `exists_eq_append_trim_append` and `trim_append_append`: the same for both ends.
-/

set_option autoImplicit false

namespace ControlStore.Text

/-- Only characters of the class `p` are dropped, and none of them is left at the end. -/
theorem dropTrailing_eq_iff {p : Char → Bool} {s u : List Char} :
    dropTrailing p s = u ↔
      ∃ t, s = u ++ t ∧ (∀ c ∈ t, p c = true) ∧ ∀ c ∈ u.getLast?, p c = false := by
  constructor
  · rintro rfl
    -- `List.rdropWhile` is the same function, so its lemmas apply once it is named.
    refine ⟨s.rtakeWhile p, List.rdropWhile_append_rtakeWhile.symm,
      fun c hc => List.mem_rtakeWhile_imp hc, fun c hc => ?_⟩
    have hne : s.rdropWhile p ≠ [] := by
      intro hnil
      rw [show dropTrailing p s = s.rdropWhile p from rfl, hnil] at hc
      cases hc
    have hlast := List.rdropWhile_last_not p s hne
    rw [show dropTrailing p s = s.rdropWhile p from rfl, List.getLast?_eq_getLast_of_ne_nil hne]
      at hc
    cases hc
    simpa using hlast
  · rintro ⟨t, rfl, ht, hu⟩
    have hdrop : (u ++ t).reverse.dropWhile p = u.reverse.dropWhile p := by
      rw [List.reverse_append]
      exact List.dropWhile_append_of_pos fun c hc => ht c (List.mem_reverse.mp hc)
    rw [dropTrailing, hdrop]
    exact List.rdropWhile_eq_self_iff.mpr fun hne => by
      simp [hu _ (List.getLast?_eq_getLast_of_ne_nil hne)]

/-- Characters of the class `p` at the end of a text are dropped together with those before them. -/
theorem dropTrailing_append {p : Char → Bool} (s : List Char) {t : List Char}
    (ht : ∀ c ∈ t, p c = true) : dropTrailing p (s ++ t) = dropTrailing p s := by
  rw [dropTrailing, List.reverse_append,
    List.dropWhile_append_of_pos fun c hc => ht c (List.mem_reverse.mp hc), dropTrailing]

/-- A text is what `dropTrailing` leaves of it, with droppable characters behind. -/
theorem exists_eq_dropTrailing_append (p : Char → Bool) (s : List Char) :
    ∃ t, s = dropTrailing p s ++ t ∧ (∀ c ∈ t, p c = true) ∧
      ∀ c ∈ (dropTrailing p s).getLast?, p c = false :=
  dropTrailing_eq_iff.mp rfl

/-- A text is what `trim` leaves of it, between blank characters. -/
theorem exists_eq_append_trim_append (s : List Char) :
    ∃ before after, s = before ++ trim s ++ after ∧
      (∀ c ∈ before, isBlank c = true) ∧ ∀ c ∈ after, isBlank c = true := by
  obtain ⟨after, hs, hafter, -⟩ := exists_eq_dropTrailing_append isBlank (s.dropWhile isBlank)
  refine ⟨s.takeWhile isBlank, after, ?_, fun c hc => List.mem_takeWhile_imp hc, hafter⟩
  calc s = s.takeWhile isBlank ++ s.dropWhile isBlank := List.takeWhile_append_dropWhile.symm
    _ = s.takeWhile isBlank ++ trim s ++ after := by rw [List.append_assoc, trim, ← hs]

/-- Only blank text is trimmed to nothing. -/
theorem trim_eq_nil_iff {s : List Char} : trim s = [] ↔ ∀ c ∈ s, isBlank c = true := by
  constructor
  · intro h
    obtain ⟨before, after, hs, hbefore, hafter⟩ := exists_eq_append_trim_append s
    rw [hs, h, List.append_nil]
    exact fun c hc => (List.mem_append.mp hc).elim (hbefore c) (hafter c)
  · intro h
    rw [trim, List.dropWhile_eq_nil_iff.mpr h]
    rfl

/-- Blank characters are dropped up to the first and the last character that is none. -/
theorem trim_append_append {before u after : List Char}
    (hbefore : ∀ c ∈ before, isBlank c = true) (hafter : ∀ c ∈ after, isBlank c = true)
    (hne : u ≠ []) (hu : ∀ c ∈ u, isBlank c = false) :
    trim (before ++ u ++ after) = u := by
  have hdrop : (before ++ u ++ after).dropWhile isBlank = u ++ after := by
    obtain ⟨c, u', rfl⟩ := List.exists_cons_of_ne_nil hne
    rw [List.append_assoc, List.dropWhile_append_of_pos hbefore, List.cons_append,
      List.dropWhile_cons_of_neg (by simp [hu c])]
  rw [trim, hdrop]
  exact dropTrailing_eq_iff.mpr ⟨after, rfl, hafter, fun c hc => hu c (List.mem_of_getLast? hc)⟩

/-- No digit is blank. -/
theorem isBlank_eq_false_of_isDigit {c : Char} (h : Hex.IsDigit c) : isBlank c = false := by
  simp only [Hex.IsDigit, Hex.le_iff_toNat_le, Char.reduceToNat] at h
  simp only [isBlank, inRanges, blankRanges, List.any_cons, List.any_nil, Bool.or_false,
    Bool.or_eq_false_iff, Bool.and_eq_false_iff, decide_eq_false_iff_not]
  omega

end ControlStore.Text
