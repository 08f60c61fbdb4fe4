import ControlStore.Proofs.Grammar

/-!
# `ControlStore.Proofs.FieldByte`: what becomes of a field

A field is read as a byte, or it is refused for one of two reasons. `Hex.readByte_eq_ok_iff` says
when it is a byte. Here the same is said of the reasons, in terms of the characters of the field and
of the number that they stand for, which has no bound.

* `Hex.readByte_eq_notHex_iff`: there is no digit, or a character that is none.
* `Hex.readByte_eq_tooLarge_iff`: there are only digits, and their number is above 255. The loop
  over the digits works on eight bits and stops at the first result that does not fit, so it never
  has that number. That it stops exactly for these numbers is `Hex.foldlM_append?_eq_some_iff`.
* `exists_readField_error_iff`: a reason shows at the end of the message about a field, and no other
  reason ends in the same words.
* `readField_outcome`: the three outcomes for a field of a row.
-/

set_option autoImplicit false

namespace ControlStore

/-! ### The two reasons -/

namespace Hex

variable {field : List Char}

/-- Digits are looked for first. Whether their number fits is asked of fields that have nothing
else. -/
theorem readByte_eq_notHex_iff :
    readByte field = .error .notHex ↔ field = [] ∨ ∃ c ∈ field, ¬ IsDigit c := by
  unfold readByte
  cases hm : field.mapM digit? with
  | none =>
    have hbad : ∃ c ∈ field, ¬ IsDigit c := by
      by_contra hnone
      have hdigits : ∀ c ∈ field, IsDigit c := by simpa using hnone
      obtain ⟨ds, hds⟩ := exists_mapM_digit?_eq_some hdigits
      cases hm.symm.trans hds
    simp [hbad]
  | some ds =>
    obtain ⟨hdigits, hmap⟩ := mapM_digit?_eq_some_iff.mp hm
    cases ds with
    | nil =>
      have hnil : field = [] := List.map_eq_nil_iff.mp hmap.symm
      simp [hnil]
    | cons d ds =>
      have hgood : ¬ (field = [] ∨ ∃ c ∈ field, ¬ IsDigit c) := by
        rintro (rfl | ⟨c, hc, hbad⟩)
        · cases hmap
        · exact hbad (hdigits c hc)
      dsimp only
      cases (d :: ds).foldlM append? 0 <;> simp [hgood]

/-- A field of digits that is no byte is a number past the end of a byte. -/
theorem readByte_eq_tooLarge_iff :
    readByte field = .error .tooLarge ↔
      field ≠ [] ∧ (∀ c ∈ field, IsDigit c) ∧ 255 < value field := by
  constructor
  · intro hread
    have hgood : ¬ (field = [] ∨ ∃ c ∈ field, ¬ IsDigit c) := by
      intro hbad
      cases hread.symm.trans (readByte_eq_notHex_iff.mpr hbad)
    simp only [not_or, not_exists, not_and, not_not] at hgood
    have hlarge : ¬ value field < 256 := by
      intro hlt
      have hvalue : value field = (UInt8.ofNat (value field)).toNat := by
        rw [UInt8.toNat_ofNat', Nat.mod_eq_of_lt hlt]
      cases hread.symm.trans (readByte_eq_ok_iff.mpr ⟨hgood.1, hgood.2, hvalue⟩)
    exact ⟨hgood.1, hgood.2, by omega⟩
  · rintro ⟨hne, hdigits, hlarge⟩
    cases hread : readByte field with
    | ok v =>
      have hvalue : value field = v.toNat := (readByte_eq_ok_iff.mp hread).2.2
      have hlt : v.toNat < 256 := v.toNat_lt
      omega
    | error fault =>
      cases fault with
      | tooLarge => rfl
      | notHex =>
        rcases readByte_eq_notHex_iff.mp hread with hnil | ⟨c, hc, hbad⟩
        · exact absurd hnil hne
        · exact absurd (hdigits c hc) hbad

end Hex

/-! ### Messages -/

/-- The words that end the message about a field. -/
def Hex.Fault.ending : Hex.Fault → String
  | .notHex => "expected hex digits"
  | .tooLarge => "value exceeds FF"

namespace Row

/-- The wording of a bad field names its column, quotes it, and ends in what is wrong with it. -/
theorem message_badByte (column : Column) (field : List Char) (fault : Hex.Fault) :
    (LineFault.badByte column field fault).message =
      "Invalid " ++ column.name ++ " '" ++ String.ofList field ++ "', " ++ fault.ending := by
  cases fault with
  | notHex =>
    show "Invalid " ++ column.name ++ " '" ++ String.ofList field ++ "', expected hex digits" = _
    exact String.toList_inj.mp (by simp [Hex.Fault.ending])
  | tooLarge =>
    show "Invalid " ++ column.name ++ " '" ++ String.ofList field ++ "', value exceeds FF" = _
    exact String.toList_inj.mp (by simp [Hex.Fault.ending])

/-- A message ends in the words of its own reason only. The last letter already tells them apart. -/
theorem ending_suffix_message_iff {column : Column} {field : List Char} {fault other : Hex.Fault} :
    other.ending.toList <:+ (LineFault.badByte column field fault).message.toList ↔
      other = fault := by
  have hne (reason : Hex.Fault) : reason.ending.toList ≠ [] := by
    cases reason <;> decide
  rw [message_badByte, String.toList_append]
  generalize ("Invalid " ++ column.name ++ " '" ++ String.ofList field ++ "', ").toList = start
  constructor
  · intro hsuffix
    obtain ⟨before, heq⟩ := hsuffix
    have hlast := congrArg List.getLast? heq
    rw [List.getLast?_append_of_ne_nil _ (hne other),
      List.getLast?_append_of_ne_nil _ (hne fault)] at hlast
    revert hlast
    cases other <;> cases fault <;> decide
  · rintro rfl
    exact List.suffix_append _ _

/-- A field is refused with the words of a reason exactly when it is refused for that reason. -/
theorem exists_readField_error_iff {column : Column} {field : List Char} (reason : Hex.Fault) :
    (∃ cause, readField column field = .error cause ∧
      reason.ending.toList <:+ cause.message.toList) ↔ Hex.readByte field = .error reason := by
  unfold readField
  cases Hex.readByte field with
  | ok v => simp [Except.mapError]
  | error fault =>
    simp only [Except.mapError, Except.error.injEq, exists_eq_left', ending_suffix_message_iff]
    exact eq_comm

/-- What becomes of a field of any length. It is the byte `v` exactly when it has a digit, has only
digits, and they stand for the number `v`. It is refused with the words `expected hex digits`
exactly when it is empty or has a character that is no digit, and with the words `value exceeds FF`
exactly when it has a digit, has only digits, and their number is above 255. -/
theorem readField_outcome (column : Column) (field : List Char) :
    (∀ v : UInt8, readField column field = .ok v ↔
      field ≠ [] ∧ (∀ c ∈ field, Hex.IsDigit c) ∧ Hex.value field = v.toNat) ∧
    ((∃ cause, readField column field = .error cause ∧
        "expected hex digits".toList <:+ cause.message.toList) ↔
      field = [] ∨ ∃ c ∈ field, ¬ Hex.IsDigit c) ∧
    ((∃ cause, readField column field = .error cause ∧
        "value exceeds FF".toList <:+ cause.message.toList) ↔
      field ≠ [] ∧ (∀ c ∈ field, Hex.IsDigit c) ∧ 255 < Hex.value field) := by
  refine ⟨?_, ?_, ?_⟩
  · intro v
    rw [readField_eq_ok_iff, Hex.readByte_eq_ok_iff]
  · rw [← Hex.readByte_eq_notHex_iff]
    exact exists_readField_error_iff .notHex
  · rw [← Hex.readByte_eq_tooLarge_iff]
    exact exists_readField_error_iff .tooLarge

end Row

end ControlStore
