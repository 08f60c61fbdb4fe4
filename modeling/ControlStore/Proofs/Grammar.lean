import ControlStore.Proofs.Fields
import ControlStore.Proofs.Trim

/-!
# `ControlStore.Proofs.Grammar`: the lines that are rows

The text of a row is a first field, two control fields, and runs of tabs between them. Tabs and then
carriage returns may follow. `Row.Spells text opcode control` says that a text has this form and
what its fields stand for. The relation is built from the outside in, without splitting or
trimming, and the reading functions of `ControlStore.Row` are compared with it.

* `byteField_iff`, `opcodeField_iff`: what a field stands for is what is read from it after it was
  trimmed.
* `hasFields_iff`: `Row.HasFields` names the three fields of a text, whatever they hold. The
  carriage returns at the end of the text are none of its content, so a last field of carriage
  returns alone does not count.
* `spells_iff`: a text spells a row exactly when it has three fields of the right kind. A last
  field with carriage returns at its end spells the same row with them or without them.
* `ofLine?_eq_none_iff`, `ofLine?_eq_some_iff`: the blank lines and the rows of all other lines.
-/

set_option autoImplicit false

namespace ControlStore.Row

/-- A text of blank characters alone. -/
def Blank (s : List Char) : Prop :=
  ∀ c ∈ s, Text.isBlank c = true

/-- Any number of blank characters other than tabs. -/
def Padding (s : List Char) : Prop :=
  ∀ c ∈ s, Text.isBlank c = true ∧ c ≠ '\t'

/-- Any number of carriage returns. -/
def Returns (s : List Char) : Prop :=
  ∀ c ∈ s, c = '\r'

/-- A field that stands for the byte `v`: at least one digit, with padding around the digits. -/
inductive ByteField : List Char → UInt8 → Prop where
  | intro {before digits after : List Char} {v : UInt8} (hbefore : Padding before)
      (hne : digits ≠ []) (hdigits : ∀ c ∈ digits, Hex.IsDigit c)
      (hvalue : Hex.value digits = v.toNat) (hafter : Padding after) :
      ByteField (before ++ digits ++ after) v

/-- A first field: padding alone, which stands for no opcode, or a byte. -/
inductive OpcodeField : List Char → Option UInt8 → Prop where
  | empty {f : List Char} (h : Padding f) : OpcodeField f none
  | byte {f : List Char} {v : UInt8} (h : ByteField f v) : OpcodeField f (some v)

/-- The text of a row with the given opcode and control bytes. -/
inductive Spells : List Char → Option UInt8 → ControlPair → Prop where
  | intro {f₀ t₁ f₁ t₂ f₂ t₃ cr : List Char} {opcode : Option UInt8} {first second : UInt8}
      (h₀ : OpcodeField f₀ opcode) (ht₁ : Tabs t₁) (hne₁ : t₁ ≠ [])
      (h₁ : ByteField f₁ first) (ht₂ : Tabs t₂) (hne₂ : t₂ ≠ [])
      (h₂ : ByteField f₂ second) (ht₃ : Tabs t₃) (hcr : Returns cr) :
      Spells (f₀ ++ t₁ ++ f₁ ++ t₂ ++ f₂ ++ t₃ ++ cr) opcode ⟨first, second⟩

/-- The text of a line with exactly three fields, whatever they hold. Fields have no tab in them,
only the first may be empty, and all carriage returns at the end belong to the line ending. -/
inductive HasFields : List Char → List Char → List Char → List Char → Prop where
  | intro {f₀ t₁ f₁ t₂ f₂ t₃ cr : List Char}
      (h₀ : '\t' ∉ f₀) (ht₁ : Tabs t₁) (hne₁ : t₁ ≠ [])
      (h₁ : '\t' ∉ f₁ ∧ f₁ ≠ []) (ht₂ : Tabs t₂) (hne₂ : t₂ ≠ [])
      (h₂ : '\t' ∉ f₂ ∧ f₂ ≠ []) (ht₃ : Tabs t₃) (hcr : Returns cr)
      (hend : ∀ c ∈ (f₂ ++ t₃).getLast?, c ≠ '\r') :
      HasFields (f₀ ++ t₁ ++ f₁ ++ t₂ ++ f₂ ++ t₃ ++ cr) f₀ f₁ f₂

/-! ### Single fields -/

/-- A tab is blank. -/
@[simp] theorem isBlank_tab : Text.isBlank '\t' = true := by
  decide

/-- A carriage return is blank. -/
@[simp] theorem isBlank_return : Text.isBlank '\r' = true := by
  decide

/-- No digit is blank. -/
theorem not_isDigit_of_isBlank {c : Char} (h : Text.isBlank c = true) : ¬ Hex.IsDigit c := by
  intro hdigit
  rw [Text.isBlank_eq_false_of_isDigit hdigit] at h
  cases h

/-- Without a tab in it, padding is the same as blank text. -/
theorem padding_iff {f : List Char} (htab : '\t' ∉ f) : Padding f ↔ Blank f := by
  refine ⟨fun h c hc => (h c hc).1, fun h c hc => ⟨h c hc, ?_⟩⟩
  rintro rfl
  exact htab hc

/-- There is no tab in padding. -/
theorem Padding.tab_not_mem {f : List Char} (h : Padding f) : '\t' ∉ f :=
  fun htab => (h '\t' htab).2 rfl

/-- There is no tab in a field that stands for a byte. -/
theorem ByteField.tab_not_mem {f : List Char} {v : UInt8} (h : ByteField f v) : '\t' ∉ f := by
  obtain ⟨hbefore, hne, hdigits, hvalue, hafter⟩ := h
  simp only [List.mem_append, not_or]
  exact ⟨⟨hbefore.tab_not_mem, fun htab => not_isDigit_of_isBlank isBlank_tab (hdigits _ htab)⟩,
    hafter.tab_not_mem⟩

/-- There is no tab in a first field. -/
theorem OpcodeField.tab_not_mem {f : List Char} {o : Option UInt8} (h : OpcodeField f o) :
    '\t' ∉ f := by
  cases h with
  | empty h => exact h.tab_not_mem
  | byte h => exact h.tab_not_mem

/-- A field that stands for a byte has a digit in it. -/
theorem ByteField.not_blank {f : List Char} {v : UInt8} (h : ByteField f v) : ¬ Blank f := by
  obtain ⟨hbefore, hne, hdigits, hvalue, hafter⟩ := h
  obtain ⟨c, hc⟩ := List.exists_mem_of_ne_nil _ hne
  exact fun hblank => not_isDigit_of_isBlank (hblank c (by simp [hc])) (hdigits c hc)

/-- A field without tabs stands for a byte exactly when its trimmed text is read as that byte. -/
theorem byteField_iff {f : List Char} (htab : '\t' ∉ f) {v : UInt8} :
    ByteField f v ↔ Hex.readByte (Text.trim f) = .ok v := by
  rw [Hex.readByte_eq_ok_iff]
  constructor
  · rintro ⟨hbefore, hne, hdigits, hvalue, hafter⟩
    rw [Text.trim_append_append (fun c hc => (hbefore c hc).1) (fun c hc => (hafter c hc).1) hne
      fun c hc => Text.isBlank_eq_false_of_isDigit (hdigits c hc)]
    exact ⟨hne, hdigits, hvalue⟩
  · rintro ⟨hne, hdigits, hvalue⟩
    obtain ⟨before, after, hf, hbefore, hafter⟩ := Text.exists_eq_append_trim_append f
    -- What was trimmed off is padding, since there is no tab in it.
    rw [hf] at htab ⊢
    simp only [List.mem_append, not_or] at htab
    exact .intro ((padding_iff htab.1.1).mpr hbefore) hne hdigits hvalue
      ((padding_iff htab.2).mpr hafter)

/-- The column of a field only matters for the fault. -/
@[simp] theorem readField_eq_ok_iff {column : Column} {field : List Char} {v : UInt8} :
    readField column field = .ok v ↔ Hex.readByte field = .ok v := by
  unfold readField
  cases Hex.readByte field with
  | error fault => exact ⟨fun h => (by cases h), fun h => by cases h⟩
  | ok w => rw [Except.mapError, Except.ok.injEq, Except.ok.injEq]

/-- A first field without tabs stands for an opcode, or for none, exactly when its trimmed text is
read so. -/
theorem opcodeField_iff {f : List Char} (htab : '\t' ∉ f) {o : Option UInt8} (g h : List Char) :
    OpcodeField f o ↔ readOpcode ⟨Text.trim f, g, h⟩ = .ok o := by
  unfold readOpcode
  -- Being blank decides between the two forms of the field, and between the branches of reading.
  by_cases hblank : Blank f
  · rw [if_pos (Text.trim_eq_nil_iff.mpr hblank), Except.ok.injEq]
    constructor
    · intro hfield
      cases hfield with
      | empty _ => rfl
      | byte hbyte => exact absurd hblank hbyte.not_blank
    · rintro rfl
      exact .empty ((padding_iff htab).mpr hblank)
  · rw [if_neg fun hnil => hblank (Text.trim_eq_nil_iff.mp hnil)]
    constructor
    · intro hfield
      cases hfield with
      | empty hpad => exact absurd ((padding_iff htab).mp hpad) hblank
      | byte hbyte =>
        rw [readField_eq_ok_iff.mpr ((byteField_iff htab).mp hbyte)]
        rfl
    · intro hread
      cases hv : readField .opcode (Text.trim f) with
      | error fault =>
        rw [hv] at hread
        cases hread
      | ok v =>
        rw [hv] at hread
        cases hread
        exact .byte ((byteField_iff htab).mpr (readField_eq_ok_iff.mp hv))

/-- Control bytes are read when both of their fields are bytes. -/
theorem readControl_eq_ok_iff {row : Row} {control : ControlPair} :
    row.readControl = .ok control ↔
      Hex.readByte row.control1 = .ok control.first ∧
        Hex.readByte row.control2 = .ok control.second := by
  obtain ⟨first, second⟩ := control
  rw [← @readField_eq_ok_iff .control1, ← @readField_eq_ok_iff .control2, readControl]
  cases readField .control1 row.control1 with
  | error fault => exact ⟨fun h => (by cases h), fun h => by cases h.1⟩
  | ok a =>
    cases readField .control2 row.control2 with
    | error fault => exact ⟨fun h => (by cases h), fun h => by cases h.2⟩
    | ok b =>
      show Except.ok (ControlPair.mk a b) = Except.ok _ ↔ _
      simp only [Except.ok.injEq, ControlPair.mk.injEq]

/-! ### Three fields -/

/-- A text behind tabs is at a tab. -/
theorem AtTab.of_tabs_append {t s : List Char} (ht : Tabs t) (hne : t ≠ []) : AtTab (t ++ s) := by
  obtain ⟨c, t', rfl⟩ := List.exists_cons_of_ne_nil hne
  rintro _ ⟨⟩
  exact ht c List.mem_cons_self

/-- Tabs alone are at a tab, or at the end. -/
theorem AtTab.of_tabs {t : List Char} (ht : Tabs t) : AtTab t :=
  fun c hc => ht c (List.mem_of_head? hc)

/-- A run of tabs in front of a field is not empty when the text goes on with a tab there. -/
theorem ne_nil_of_atTab {t f rest : List Char} (h : AtTab (t ++ f ++ rest)) (hf : '\t' ∉ f)
    (hne : f ≠ []) : t ≠ [] := by
  rintro rfl
  obtain ⟨c, f', rfl⟩ := List.exists_cons_of_ne_nil hne
  exact hf (List.mem_cons.mpr (Or.inl (h c rfl).symm))

/-- Three fields, from the tabs around them. -/
theorem fields_eq_three_iff {content f₀ f₁ f₂ : List Char} :
    fields content = [f₀, f₁, f₂] ↔
      ∃ t₁ t₂ t₃, content = f₀ ++ t₁ ++ f₁ ++ t₂ ++ f₂ ++ t₃ ∧ '\t' ∉ f₀ ∧
        (Tabs t₁ ∧ t₁ ≠ []) ∧ ('\t' ∉ f₁ ∧ f₁ ≠ []) ∧ (Tabs t₂ ∧ t₂ ≠ []) ∧
        ('\t' ∉ f₂ ∧ f₂ ≠ []) ∧ Tabs t₃ := by
  constructor
  · intro h
    -- Take the fields off from the left. A next field is never at once behind the last one.
    obtain ⟨r₀, rfl, h₀, hr₀, h⟩ := fields_eq_cons_iff.mp h
    obtain ⟨t₁, r₁, rfl, ht₁, h₁, hf₁, hr₁, h⟩ := pieces_eq_cons_iff.mp h
    obtain ⟨t₂, t₃, rfl, ht₂, h₂, hf₂, -, h⟩ := pieces_eq_cons_iff.mp h
    refine ⟨t₁, t₂, t₃, by simp only [List.append_assoc], h₀,
      ⟨ht₁, ne_nil_of_atTab hr₀ h₁ hf₁⟩, ⟨h₁, hf₁⟩, ⟨ht₂, ne_nil_of_atTab hr₁ h₂ hf₂⟩,
      ⟨h₂, hf₂⟩, pieces_eq_nil_iff.mp h⟩
  · rintro ⟨t₁, t₂, t₃, rfl, h₀, ⟨ht₁, hne₁⟩, ⟨h₁, hf₁⟩, ⟨ht₂, hne₂⟩, ⟨h₂, hf₂⟩, ht₃⟩
    -- Put them together from the right.
    have hr₁ : pieces (t₂ ++ f₂ ++ t₃) = [f₂] := by
      rw [pieces_append_append ht₂ h₂ hf₂ (.of_tabs ht₃), pieces_eq_nil_of_tabs ht₃]
    have hr₀ : pieces (t₁ ++ f₁ ++ (t₂ ++ f₂ ++ t₃)) = [f₁, f₂] := by
      rw [pieces_append_append ht₁ h₁ hf₁ (by
        rw [List.append_assoc]
        exact .of_tabs_append ht₂ hne₂), hr₁]
    have hcontent : fields (f₀ ++ (t₁ ++ f₁ ++ (t₂ ++ f₂ ++ t₃))) = [f₀, f₁, f₂] := by
      rw [fields_append h₀ (by
        simp only [List.append_assoc]
        exact .of_tabs_append ht₁ hne₁), hr₀]
    simpa only [List.append_assoc] using hcontent

/-- A line has the three fields that its content has without the carriage returns at its end. -/
theorem hasFields_iff {text f₀ f₁ f₂ : List Char} :
    HasFields text f₀ f₁ f₂ ↔ fields (Text.dropTrailing (· = '\r') text) = [f₀, f₁, f₂] := by
  constructor
  · rintro ⟨h₀, ht₁, hne₁, h₁, ht₂, hne₂, h₂, ht₃, hcr, hend⟩
    rename_i t₁ t₂ t₃ cr
    have hcontent : Text.dropTrailing (· = '\r') (f₀ ++ t₁ ++ f₁ ++ t₂ ++ f₂ ++ t₃ ++ cr)
        = f₀ ++ t₁ ++ f₁ ++ t₂ ++ f₂ ++ t₃ := by
      refine Text.dropTrailing_eq_iff.mpr ⟨cr, rfl, fun c hc => by simp [hcr c hc], fun c hc => ?_⟩
      -- The last field is not empty, so the last character of the content is in `f₂ ++ t₃`.
      rw [List.append_assoc _ f₂ t₃, List.getLast?_append_of_ne_nil _ (by simp [h₂.2])] at hc
      simpa using hend c hc
    rw [hcontent]
    exact fields_eq_three_iff.mpr
      ⟨t₁, t₂, t₃, rfl, h₀, ⟨ht₁, hne₁⟩, h₁, ⟨ht₂, hne₂⟩, h₂, ht₃⟩
  · intro h
    obtain ⟨t₁, t₂, t₃, hcontent, h₀, ⟨ht₁, hne₁⟩, h₁, ⟨ht₂, hne₂⟩, h₂, ht₃⟩ :=
      fields_eq_three_iff.mp h
    obtain ⟨cr, rfl, hcr, hend⟩ := Text.dropTrailing_eq_iff.mp hcontent
    refine .intro h₀ ht₁ hne₁ h₁ ht₂ hne₂ h₂ ht₃ (fun c hc => by simpa using hcr c hc) ?_
    intro c hc
    rw [List.append_assoc _ f₂ t₃, List.getLast?_append_of_ne_nil _ (by simp [h₂.2])] at hend
    simpa using hend c hc

/-- Carriage returns at the end of a field do not change what it stands for. -/
theorem ByteField.dropTrailing_return {f : List Char} {v : UInt8} (h : ByteField f v) :
    ByteField (Text.dropTrailing (· = '\r') f) v := by
  obtain ⟨hbefore, hne, hdigits, hvalue, hafter⟩ := h
  rename_i before digits after
  obtain ⟨cr, hafter_eq, hcr, hend⟩ :=
    Text.exists_eq_dropTrailing_append (· = '\r') after
  generalize Text.dropTrailing (· = '\r') after = rest at hafter_eq hend
  subst hafter_eq
  have hdrop : Text.dropTrailing (· = '\r') (before ++ digits ++ (rest ++ cr))
      = before ++ digits ++ rest := by
    refine Text.dropTrailing_eq_iff.mpr ⟨cr, by simp only [List.append_assoc], hcr, ?_⟩
    intro c hc
    by_cases hrest : rest = []
    · -- The last character is a digit.
      rw [hrest, List.append_nil, List.getLast?_append_of_ne_nil _ hne] at hc
      have hdigit := hdigits c (List.mem_of_getLast? hc)
      simp only [decide_eq_false_iff_not]
      rintro rfl
      exact not_isDigit_of_isBlank isBlank_return hdigit
    · rw [List.getLast?_append_of_ne_nil _ hrest] at hc
      exact hend c hc
  rw [hdrop]
  exact .intro hbefore hne hdigits hvalue fun c hc => hafter c (List.mem_append_left _ hc)

/-- A field that stands for a byte is not empty. -/
theorem ByteField.ne_nil {f : List Char} {v : UInt8} (h : ByteField f v) : f ≠ [] := by
  rintro rfl
  exact h.not_blank (by simp [Blank])

/-- A row is a line with three fields, the first of which stands for an opcode or for none and the
others for the control bytes. -/
theorem spells_iff {text : List Char} {opcode : Option UInt8} {control : ControlPair} :
    Spells text opcode control ↔
      ∃ f₀ f₁ f₂, HasFields text f₀ f₁ f₂ ∧ OpcodeField f₀ opcode ∧
        ByteField f₁ control.first ∧ ByteField f₂ control.second := by
  constructor
  · rintro ⟨h₀, ht₁, hne₁, h₁, ht₂, hne₂, h₂, ht₃, hcr⟩
    rename_i f₀ t₁ f₁ t₂ f₂ t₃ cr first second
    by_cases hnil : t₃ = []
    · -- Carriage returns at the end of the last field count as part of the line ending.
      subst hnil
      obtain ⟨cr', hf₂, hcr', hend⟩ :=
        Text.exists_eq_dropTrailing_append (· = '\r') f₂
      have h₂' := h₂.dropTrailing_return
      generalize Text.dropTrailing (· = '\r') f₂ = f₂' at hf₂ hend h₂'
      subst hf₂
      refine ⟨f₀, f₁, f₂', ?_, h₀, h₁, h₂'⟩
      have hfields : HasFields (f₀ ++ t₁ ++ f₁ ++ t₂ ++ f₂' ++ [] ++ (cr' ++ cr)) f₀ f₁ f₂' := by
        refine .intro h₀.tab_not_mem ht₁ hne₁ ⟨h₁.tab_not_mem, h₁.ne_nil⟩ ht₂ hne₂
          ⟨h₂'.tab_not_mem, h₂'.ne_nil⟩ ht₃ ?_ ?_
        · intro c hc
          exact (List.mem_append.mp hc).elim (fun hc => by simpa using hcr' c hc) (hcr c)
        · simpa using hend
      simpa only [List.append_assoc, List.nil_append] using hfields
    · -- Tabs behind the last field keep its carriage returns apart from the line ending.
      refine ⟨f₀, f₁, f₂, .intro h₀.tab_not_mem ht₁ hne₁ ⟨h₁.tab_not_mem, h₁.ne_nil⟩ ht₂ hne₂
        ⟨h₂.tab_not_mem, h₂.ne_nil⟩ ht₃ hcr ?_, h₀, h₁, h₂⟩
      intro c hc
      rw [List.getLast?_append_of_ne_nil _ hnil] at hc
      rw [ht₃ c (List.mem_of_getLast? hc)]
      decide
  · rintro ⟨f₀, f₁, f₂, ⟨-, ht₁, hne₁, -, ht₂, hne₂, -, ht₃, hcr, -⟩, h₀, h₁, h₂⟩
    exact .intro h₀ ht₁ hne₁ h₁ ht₂ hne₂ h₂ ht₃ hcr

/-- Carriage returns at the end of a line make no difference to its row. -/
theorem spells_congr_bare {text text' : List Char} {opcode : Option UInt8} {control : ControlPair}
    (h : Text.dropTrailing (· = '\r') text = Text.dropTrailing (· = '\r') text') :
    Spells text opcode control ↔ Spells text' opcode control := by
  simp only [spells_iff, hasFields_iff, h]

/-! ### Whole lines -/

/-- Carriage returns are blank, so it makes no difference to a blank line whether they are
dropped. -/
theorem blank_dropTrailing_return_iff {text : List Char} :
    Blank (Text.dropTrailing (· = '\r') text) ↔ Blank text := by
  obtain ⟨cr, htext, hcr, -⟩ :=
    Text.exists_eq_dropTrailing_append (· = '\r') text
  constructor
  · intro h c hc
    rw [htext] at hc
    rcases List.mem_append.mp hc with hc | hc
    · exact h c hc
    · rw [show c = '\r' by simpa using hcr c hc]
      exact isBlank_return
  · intro h c hc
    exact h c (by rw [htext]; exact List.mem_append_left _ hc)

/-- The blank lines hold no row. -/
theorem ofLine?_eq_none_iff {text : List Char} : ofLine? text = .ok none ↔ Blank text := by
  rw [← blank_dropTrailing_return_iff, Blank, ← List.all_eq_true, ofLine?]
  split
  · rename_i hall
    exact ⟨fun _ => hall, fun _ => rfl⟩
  · rename_i hall
    refine ⟨fun h => ?_, fun h => absurd h hall⟩
    cases hrow : ofFields (Text.dropTrailing (· = '\r') text) <;> rw [hrow] at h <;> cases h

/-- A line has a row exactly when it has three fields, and these are trimmed. -/
theorem ofFields_eq_ok_iff {content : List Char} {row : Row} :
    ofFields content = .ok row ↔
      ∃ f₀ f₁ f₂, fields content = [f₀, f₁, f₂] ∧
        row = ⟨Text.trim f₀, Text.trim f₁, Text.trim f₂⟩ := by
  unfold ofFields
  constructor
  · intro h
    split at h
    · rename_i a b c hmap
      -- Trimming keeps the number of fields, so they can be named before it.
      obtain ⟨f₀, _, hfields, rfl, hmap₁⟩ := List.map_eq_cons_iff.mp hmap
      obtain ⟨f₁, _, rfl, rfl, hmap₂⟩ := List.map_eq_cons_iff.mp hmap₁
      obtain ⟨f₂, _, rfl, rfl, hmap₃⟩ := List.map_eq_cons_iff.mp hmap₂
      obtain rfl := List.map_eq_nil_iff.mp hmap₃
      exact ⟨f₀, f₁, f₂, hfields, (Except.ok.inj h).symm⟩
    · cases h
  · rintro ⟨f₀, f₁, f₂, hfields, rfl⟩
    rw [hfields]
    rfl

/-- The other lines hold a row exactly when they have three fields. Its fields are trimmed. -/
theorem ofLine?_eq_some_iff {text : List Char} {row : Row} :
    ofLine? text = .ok (some row) ↔
      ¬ Blank text ∧ ∃ f₀ f₁ f₂, HasFields text f₀ f₁ f₂ ∧
        row = ⟨Text.trim f₀, Text.trim f₁, Text.trim f₂⟩ := by
  simp only [hasFields_iff, ← ofFields_eq_ok_iff]
  rw [← blank_dropTrailing_return_iff, Blank, ← List.all_eq_true, ofLine?]
  split
  · rename_i hall
    exact ⟨fun h => (by cases h), fun h => absurd hall h.1⟩
  · rename_i hall
    refine Iff.trans ?_ (and_iff_right hall).symm
    cases ofFields (Text.dropTrailing (· = '\r') text) with
    | error cause => exact ⟨fun h => (by cases h), fun h => by cases h⟩
    | ok row' => simp [Except.map]

end ControlStore.Row
