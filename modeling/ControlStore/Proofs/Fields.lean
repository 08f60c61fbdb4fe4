import ControlStore.Row

/-!
# `ControlStore.Proofs.Fields`: the pieces between tabs

`Row.fields` splits a text at each tab and drops the empty pieces behind the first. This module
says where the fields stand in the text. `Row.pieces` is the part of the split that ignores empty
pieces altogether. It is described first for a text that is put together from tabs and fields
(`pieces_tabs_append`, `pieces_field_append`), and then for any text: `pieces_eq_nil_iff` and
`pieces_eq_cons_iff` take it apart one field at a time. `fields_eq_cons_iff` adds the first field,
which may be empty.
-/

set_option autoImplicit false

namespace ControlStore.Row

/-- Any number of tabs. -/
def Tabs (s : List Char) : Prop :=
  ∀ c ∈ s, c = '\t'

/-- The text is empty or goes on with a tab, so that a field in front of it is complete. -/
def AtTab (s : List Char) : Prop :=
  ∀ c ∈ s.head?, c = '\t'

/-- The pieces of a text between tabs, without the empty ones. -/
def pieces (s : List Char) : List (List Char) :=
  (s.splitOn '\t').filter (· ≠ [])

/-- An empty text has no pieces. -/
@[simp] theorem pieces_nil : pieces [] = [] :=
  rfl

/-- A tab in front adds no piece. -/
@[simp] theorem pieces_tab_cons (s : List Char) : pieces ('\t' :: s) = pieces s := by
  have hsplit : ('\t' :: s).splitOn '\t' = [] :: s.splitOn '\t' :=
    List.splitOn_append_cons_self [] s
  rw [pieces, hsplit, List.filter_cons_of_neg (by simp)]
  rfl

/-- Tabs in front of a text open no field. -/
theorem pieces_tabs_append {t : List Char} (ht : Tabs t) (s : List Char) :
    pieces (t ++ s) = pieces s := by
  induction t with
  | nil => rfl
  | cons c t ih =>
    obtain ⟨rfl, ht'⟩ := List.forall_mem_cons.mp ht
    rw [List.cons_append, pieces_tab_cons]
    exact ih ht'

/-- A field in front of a text that goes on with a tab is the first piece. -/
theorem pieces_field_append {f rest : List Char} (hf : '\t' ∉ f) (hne : f ≠ [])
    (hrest : AtTab rest) : pieces (f ++ rest) = f :: pieces rest := by
  cases rest with
  | nil =>
    rw [List.append_nil, pieces, List.splitOn_eq_singleton hf,
      List.filter_cons_of_pos (by simp [hne])]
    rfl
  | cons c rest =>
    obtain rfl : c = '\t' := hrest c rfl
    rw [pieces, List.splitOn_append_cons_self_of_not_mem hf,
      List.filter_cons_of_pos (by simp [hne]), pieces_tab_cons]
    rfl

/-- Every text is a field, possibly empty, and a part that goes on with a tab. -/
theorem exists_eq_field_append (s : List Char) :
    ∃ f rest, s = f ++ rest ∧ '\t' ∉ f ∧ AtTab rest := by
  induction s with
  | nil => exact ⟨[], [], rfl, by simp, by simp [AtTab]⟩
  | cons c s ih =>
    by_cases hc : c = '\t'
    · exact ⟨[], c :: s, rfl, by simp, by simp [AtTab, hc]⟩
    · obtain ⟨f, rest, rfl, hf, hrest⟩ := ih
      exact ⟨c :: f, rest, rfl, by simp [hf, Ne.symm hc], hrest⟩

/-- Every text is a run of tabs, or has a first field behind such a run. -/
theorem tabs_or_exists_eq_append (s : List Char) :
    Tabs s ∨ ∃ t f rest, s = t ++ f ++ rest ∧ Tabs t ∧ '\t' ∉ f ∧ f ≠ [] ∧ AtTab rest := by
  induction s with
  | nil => exact Or.inl (by simp [Tabs])
  | cons c s ih =>
    by_cases hc : c = '\t'
    · rcases ih with hs | ⟨t, f, rest, rfl, ht, hf⟩
      · exact Or.inl (List.forall_mem_cons.mpr ⟨hc, hs⟩)
      · exact Or.inr ⟨c :: t, f, rest, rfl, List.forall_mem_cons.mpr ⟨hc, ht⟩, hf⟩
    · obtain ⟨f, rest, hs, hf, hrest⟩ := exists_eq_field_append (c :: s)
      -- The field is not empty, because what is behind it starts with a tab and `c` is none.
      have hne : f ≠ [] := by
        rintro rfl
        rw [List.nil_append] at hs
        exact hc (hrest c (by rw [← hs]; rfl))
      exact Or.inr ⟨[], f, rest, hs, by simp [Tabs], hf, hne, hrest⟩

/-- Tabs alone have no pieces. -/
theorem pieces_eq_nil_of_tabs {s : List Char} (h : Tabs s) : pieces s = [] := by
  rw [← List.append_nil s, pieces_tabs_append h, pieces_nil]

/-- A field between tabs is one piece in front of those that follow. -/
theorem pieces_append_append {t f rest : List Char} (ht : Tabs t) (hf : '\t' ∉ f) (hne : f ≠ [])
    (hrest : AtTab rest) : pieces (t ++ f ++ rest) = f :: pieces rest := by
  rw [List.append_assoc, pieces_tabs_append ht, pieces_field_append hf hne hrest]

/-- Only tabs have no pieces. -/
theorem pieces_eq_nil_iff {s : List Char} : pieces s = [] ↔ Tabs s := by
  refine ⟨fun h => ?_, pieces_eq_nil_of_tabs⟩
  rcases tabs_or_exists_eq_append s with hs | ⟨t, f, rest, rfl, ht, hf, hne, hrest⟩
  · exact hs
  · rw [pieces_append_append ht hf hne hrest] at h
    cases h

/-- The first piece stands behind the leading tabs, and the others are the pieces of the rest. -/
theorem pieces_eq_cons_iff {s f : List Char} {fs : List (List Char)} :
    pieces s = f :: fs ↔
      ∃ t rest, s = t ++ f ++ rest ∧ Tabs t ∧ '\t' ∉ f ∧ f ≠ [] ∧ AtTab rest ∧
        pieces rest = fs := by
  constructor
  · intro h
    rcases tabs_or_exists_eq_append s with hs | ⟨t, f', rest, rfl, ht, hf, hne, hrest⟩
    · rw [pieces_eq_nil_of_tabs hs] at h
      cases h
    · rw [pieces_append_append ht hf hne hrest] at h
      obtain ⟨rfl, rfl⟩ := List.cons.inj h
      exact ⟨t, rest, rfl, ht, hf, hne, hrest, rfl⟩
  · rintro ⟨t, rest, rfl, ht, hf, hne, hrest, rfl⟩
    exact pieces_append_append ht hf hne hrest

/-- The first field is what stands in front of the first tab, and the others are the pieces behind
it. -/
theorem fields_append {f rest : List Char} (hf : '\t' ∉ f) (hrest : AtTab rest) :
    fields (f ++ rest) = f :: pieces rest := by
  cases rest with
  | nil =>
    rw [List.append_nil, fields, List.splitOn_eq_singleton hf, pieces_nil]
    rfl
  | cons c rest =>
    obtain rfl : c = '\t' := hrest c rfl
    rw [fields, List.splitOn_append_cons_self_of_not_mem hf, pieces_tab_cons]
    rfl

/-- The first field reaches up to the first tab, and the others are the pieces of the rest. -/
theorem fields_eq_cons_iff {s f : List Char} {fs : List (List Char)} :
    fields s = f :: fs ↔
      ∃ rest, s = f ++ rest ∧ '\t' ∉ f ∧ AtTab rest ∧ pieces rest = fs := by
  constructor
  · intro h
    obtain ⟨f', rest, rfl, hf, hrest⟩ := exists_eq_field_append s
    rw [fields_append hf hrest] at h
    obtain ⟨rfl, rfl⟩ := List.cons.inj h
    exact ⟨rest, rfl, hf, hrest, rfl⟩
  · rintro ⟨rest, rfl, hf, hrest, rfl⟩
    exact fields_append hf hrest

end ControlStore.Row
