import ControlStore.Proofs.Grammar

/-!
# `ControlStore.Proofs.TabRuns`: fields and runs of tabs

`Row.fields` cuts a line at every single tab and drops the empty pieces behind the first. The rule
for a writer of tables is shorter: a run of tabs separates two fields, however long it is. This
module states the rule as a function of its own (`splitAtRuns`), which looks for the next run, takes
what is in front of it and goes on behind it, and compares the two.

They differ at the end of a line only. Tabs at the end are a run as well, with an empty field behind
it by the rule, and `Row.fields` drops that one.

* `splitAtRuns_eq_fields`: the fields by the rule are those of `Row.fields`, and one more that is
  empty when the line ends in a tab. The induction takes one field and the run behind it off the
  line.
* `fields_dropTrailing_tab`: tabs at the end of a line have no influence on `Row.fields`.
* `fields_agree_with_runs`: the comparison in full.
-/

set_option autoImplicit false

namespace ControlStore.Row

variable {f t : List Char}

/-! ### The rule -/

/-- What stands in front of the first tab is the first field. -/
theorem takeWhile_field_append (hf : '\t' ∉ f) (behind : List Char) :
    (f ++ '\t' :: behind).takeWhile (· ≠ '\t') = f := by
  rw [List.takeWhile_append_of_pos (by simpa using fun c hc => ne_of_mem_of_not_mem hc hf)]
  simp

/-- Behind the first field comes its tab. -/
theorem dropWhile_field_append (hf : '\t' ∉ f) (behind : List Char) :
    (f ++ '\t' :: behind).dropWhile (· ≠ '\t') = '\t' :: behind := by
  rw [List.dropWhile_append_of_pos (by simpa using fun c hc => ne_of_mem_of_not_mem hc hf)]
  simp

/-- The text behind the first run of tabs. -/
def behindRun (line : List Char) : List Char :=
  (line.dropWhile (· ≠ '\t')).dropWhile (· = '\t')

/-- The rest of the line starts behind the whole run of tabs. -/
theorem behindRun_field_append (hf : '\t' ∉ f) (behind : List Char) :
    behindRun (f ++ '\t' :: behind) = behind.dropWhile (· = '\t') := by
  rw [behindRun, dropWhile_field_append hf]
  simp

/-- The rest of the line is shorter, because the tab is gone. -/
theorem length_behindRun_lt {line : List Char} (h : '\t' ∈ line) :
    (behindRun line).length < line.length := by
  obtain ⟨f, behind, rfl, hf⟩ := List.eq_append_cons_of_mem h
  have hle := (List.dropWhile_sublist (l := behind) (· = '\t')).length_le
  rw [behindRun_field_append hf, List.length_append, List.length_cons]
  omega

/-- The parts of a line between its runs of tabs. A run is as long as it can be. A line that begins
with a tab has an empty first part, and a line that ends in one has an empty last part. -/
def splitAtRuns (line : List Char) : List (List Char) :=
  if '\t' ∈ line then line.takeWhile (· ≠ '\t') :: splitAtRuns (behindRun line) else [line]
termination_by line.length
decreasing_by exact length_behindRun_lt ‹_›

/-! ### Fields in front of and behind a run -/

/-- The first field is followed by the pieces behind the run of tabs. -/
theorem fields_field_append_tab (hf : '\t' ∉ f) (behind : List Char) :
    fields (f ++ '\t' :: behind) = f :: pieces (behind.dropWhile (· = '\t')) := by
  have htabs : Tabs (behind.takeWhile (· = '\t')) := fun c hc => by
    simpa using List.mem_takeWhile_imp hc
  rw [fields_append hf (by simp [AtTab]), pieces_tab_cons]
  conv_lhs => rw [← List.takeWhile_append_dropWhile (l := behind) (p := (· = '\t'))]
  rw [pieces_tabs_append htabs]

/-- A text that does not begin with a tab has no empty first piece. -/
theorem pieces_cons_eq_fields {c : Char} (hc : c ≠ '\t') (s : List Char) :
    pieces (c :: s) = fields (c :: s) := by
  obtain ⟨f, rest, hs, hf, hrest⟩ := exists_eq_field_append (c :: s)
  have hne : f ≠ [] := by
    intro hnil
    rw [hnil, List.nil_append] at hs
    exact hc (hrest c (by rw [← hs]; rfl))
  rw [hs, pieces_field_append hf hne hrest, fields_append hf hrest]

/-- A line ends as it does with a single tab in the place of the first run. -/
theorem getLast?_field_append_tab (f behind : List Char) :
    (f ++ '\t' :: behind).getLast? = ('\t' :: behind.dropWhile (· = '\t')).getLast? := by
  rw [List.getLast?_append_of_ne_nil f (List.cons_ne_nil _ _)]
  induction behind with
  | nil => rfl
  | cons c behind ih =>
    by_cases hc : c = '\t'
    · rw [hc, List.getLast?_cons_cons, List.dropWhile_cons_of_pos (by simp), ih]
    · rw [List.dropWhile_cons_of_neg (by simpa using hc)]

/-- The parts of a line by the rule are its fields, and an empty one behind them when the line ends
in a tab. -/
theorem splitAtRuns_eq_fields (line : List Char) :
    splitAtRuns line =
      if line.getLast? = some '\t' then fields line ++ [[]] else fields line := by
  fun_induction splitAtRuns line with
  | case1 line h ih =>
    obtain ⟨f, behind, rfl, hf⟩ := List.eq_append_cons_of_mem h
    rw [behindRun_field_append hf] at ih ⊢
    rw [takeWhile_field_append hf, fields_field_append_tab hf, getLast?_field_append_tab, ih]
    cases hrest : behind.dropWhile (· = '\t') with
    | nil =>
      -- The run reaches the end of the line. The rule has an empty part there.
      rfl
    | cons c s =>
      -- The last field is the same in the line and behind the run.
      have hc : c ≠ '\t' := by
        intro heq
        have hhead := List.head?_dropWhile_not (· = '\t') behind
        simp [hrest, heq] at hhead
      rw [List.getLast?_cons_cons, pieces_cons_eq_fields hc]
      split <;> rfl
  | case2 line h =>
    -- Without a tab there is one field and nothing to differ in.
    have hlast : line.getLast? ≠ some '\t' := fun hlast => h (List.mem_of_getLast? hlast)
    rw [if_neg hlast, fields, List.splitOn_eq_singleton h]
    rfl

/-! ### Tabs at the end of a line -/

/-- Tabs at the end add no piece. -/
theorem pieces_append_tabs (s : List Char) (ht : Tabs t) : pieces (s ++ t) = pieces s := by
  cases t with
  | nil => rw [List.append_nil]
  | cons c t =>
    obtain ⟨rfl, ht'⟩ := List.forall_mem_cons.mp ht
    have hsplit : (s ++ '\t' :: t).splitOn '\t' = s.splitOn '\t' ++ t.splitOn '\t' :=
      List.splitOn_append_cons_self s t
    rw [pieces, hsplit, List.filter_append, ← pieces, ← pieces, pieces_eq_nil_of_tabs ht',
      List.append_nil]

/-- Tabs at the end add no field. -/
theorem fields_append_tabs (s : List Char) (ht : Tabs t) : fields (s ++ t) = fields s := by
  obtain ⟨f, rest, rfl, hf, hrest⟩ := exists_eq_field_append s
  have hend : AtTab (rest ++ t) := by
    cases rest with
    | nil => exact .of_tabs ht
    | cons c rest => exact hrest
  rw [List.append_assoc, fields_append hf hend, pieces_append_tabs rest ht, fields_append hf hrest]

/-- A line has the same fields with the tabs at its end and without them. -/
theorem fields_dropTrailing_tab (line : List Char) :
    fields (Text.dropTrailing (· = '\t') line) = fields line := by
  obtain ⟨t, hline, ht, -⟩ := Text.exists_eq_dropTrailing_append (· = '\t') line
  have htabs : Tabs t := fun c hc => by simpa using ht c hc
  conv_rhs => rw [hline]
  rw [fields_append_tabs _ htabs]

/-- The fields of a line are its parts between runs of tabs, once the tabs at its end are removed.
They are also the parts of the line as it stands, exactly when it does not end in a tab. When it
does, it has one more part, which is the last and is empty. -/
theorem fields_agree_with_runs (line : List Char) :
    fields line = splitAtRuns (Text.dropTrailing (· = '\t') line) ∧
    (fields line = splitAtRuns line ↔ line.getLast? ≠ some '\t') ∧
    (line.getLast? = some '\t' → splitAtRuns line = fields line ++ [[]]) := by
  refine ⟨?_, ?_, ?_⟩
  · have hlast : (Text.dropTrailing (· = '\t') line).getLast? ≠ some '\t' := by
      obtain ⟨t, -, -, hend⟩ := Text.exists_eq_dropTrailing_append (· = '\t') line
      intro hlast
      simpa using hend '\t' hlast
    rw [splitAtRuns_eq_fields, if_neg hlast, fields_dropTrailing_tab]
  · rw [splitAtRuns_eq_fields]
    by_cases hlast : line.getLast? = some '\t' <;> simp [hlast]
  · intro hlast
    rw [splitAtRuns_eq_fields, if_pos hlast]

end ControlStore.Row
