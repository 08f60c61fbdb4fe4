import ControlStore.Hex
import Mathlib.Data.Nat.Digits.Defs

/-!
# `ControlStore.Proofs.Hex`: the number that a field stands for

`Hex.readByte` works on eight bits and gives up at the first digit whose result does not fit. Here
it is compared with the number that the digits stand for in base sixteen (`Hex.value`), which has
no bound.

* `digit?_eq_some_iff`: the characters that are digits, and their values.
* `append?_eq_some_iff`: one more digit succeeds exactly when the number still fits a byte.
* `foldlM_append?_eq_some_iff`: the same for any number of digits. A loop that gives up early never
  misses a number that fits, because a prefix of the digits is never a larger number.
* `readByte_eq_ok_iff`: a field is a byte exactly when it has a digit, has only digits, and their
  number is that byte.
-/

set_option autoImplicit false

namespace ControlStore.Hex

/-- A hexadecimal digit, of either case. -/
def IsDigit (c : Char) : Prop :=
  ('0' ≤ c ∧ c ≤ '9') ∨ ('A' ≤ c ∧ c ≤ 'F') ∨ ('a' ≤ c ∧ c ≤ 'f')

instance (c : Char) : Decidable (IsDigit c) :=
  inferInstanceAs (Decidable (_ ∨ _))

/-- The value of a hexadecimal digit. -/
def digitValue (c : Char) : Nat :=
  if c ≤ '9' then c.toNat - '0'.toNat
  else if c ≤ 'F' then c.toNat - 'A'.toNat + 10
  else c.toNat - 'a'.toNat + 10

/-- The number that a row of digits stands for in base sixteen, the first digit on top. -/
def value (digits : List Char) : Nat :=
  Nat.ofDigits 16 (digits.map digitValue).reverse

/-! ### One digit -/

/-- Characters are ordered by their code points. -/
theorem le_iff_toNat_le (a b : Char) : a ≤ b ↔ a.toNat ≤ b.toNat :=
  Iff.rfl

/-- A number below 256 is the value of the byte made from it. -/
theorem ofNat_eq_iff_toNat_eq {n : Nat} (hn : n < 256) (b : UInt8) :
    UInt8.ofNat n = b ↔ b.toNat = n := by
  rw [← UInt8.toNat_inj, UInt8.toNat_ofNat', Nat.mod_eq_of_lt hn]
  exact eq_comm

/-- The digits are the characters of `IsDigit`, each with its value. -/
theorem digit?_eq_some_iff {c : Char} {d : UInt8} :
    digit? c = some d ↔ IsDigit c ∧ d.toNat = digitValue c := by
  simp only [digit?, IsDigit, digitValue, le_iff_toNat_le, Char.reduceToNat]
  -- The three classes do not overlap, so each branch of `digit?` meets one branch of `digitValue`.
  split
  · rename_i h
    rw [Option.some.injEq, ofNat_eq_iff_toNat_eq (by omega), if_pos h.2]
    exact ⟨fun hd => ⟨Or.inl h, hd⟩, fun hd => hd.2⟩
  · split
    · rename_i h
      have hval : c.toNat - 55 = c.toNat - 65 + 10 := by omega
      rw [Option.some.injEq, ofNat_eq_iff_toNat_eq (by omega), if_neg (by omega), if_pos h.2, hval]
      exact ⟨fun hd => ⟨Or.inr (Or.inl h), hd⟩, fun hd => hd.2⟩
    · split
      · rename_i h
        have hval : c.toNat - 87 = c.toNat - 97 + 10 := by omega
        rw [Option.some.injEq, ofNat_eq_iff_toNat_eq (by omega), if_neg (by omega),
          if_neg (by omega), hval]
        exact ⟨fun hd => ⟨Or.inr (Or.inr h), hd⟩, fun hd => hd.2⟩
      · rename_i h0 hA ha
        exact ⟨fun hd => (by cases hd), fun hd => absurd hd.1 (by omega)⟩

/-- The value of a digit is below 16. -/
theorem digitValue_lt {c : Char} (h : IsDigit c) : digitValue c < 16 := by
  simp only [IsDigit, digitValue, le_iff_toNat_le, Char.reduceToNat] at h ⊢
  split
  · omega
  · split <;> omega

/-! ### A row of digits -/

/-- One more digit behind `v`, as numbers. The product is checked before the digit is added, but a
product that does not fit leaves no sum that does. -/
theorem append?_eq_some_iff {v d w : UInt8} :
    append? v d = some w ↔ w.toNat = v.toNat * 16 + d.toNat := by
  have hw : w.toNat < 256 := w.toNat_lt
  have h16 : (16 : UInt8).toNat = 16 := rfl
  simp only [append?, mul?, h16]
  split
  · rename_i hmul
    have hprod : (v * 16).toNat = v.toNat * 16 := by
      rw [UInt8.toNat_mul, h16, Nat.mod_eq_of_lt hmul]
    rw [Option.bind_some, add?, hprod]
    split
    · rename_i hadd
      have hsum : (v * 16 + d).toNat = v.toNat * 16 + d.toNat := by
        rw [UInt8.toNat_add, hprod, Nat.mod_eq_of_lt hadd]
      rw [Option.some.injEq, ← UInt8.toNat_inj, hsum]
      exact eq_comm
    · rename_i hadd
      exact ⟨fun h => (by cases h), fun h => absurd h (by omega)⟩
  · rename_i hmul
    -- The product alone is past 255, and `w` is not.
    exact ⟨fun h => (by cases h), fun h => absurd h (by omega)⟩

/-- The loop over the digits `ds`, started at `v`. -/
theorem foldlM_append?_eq_some_iff {ds : List UInt8} {v w : UInt8} :
    ds.foldlM append? v = some w ↔
      w.toNat = v.toNat * 16 ^ ds.length + Nat.ofDigits 16 (ds.map UInt8.toNat).reverse := by
  induction ds generalizing v with
  | nil => simp [← UInt8.toNat_inj, eq_comm]
  | cons d ds ih =>
    -- As numbers, the first digit can be joined to the start value before the others are taken.
    have hsplit : v.toNat * 16 ^ (d :: ds).length
          + Nat.ofDigits 16 ((d :: ds).map UInt8.toNat).reverse
        = (v.toNat * 16 + d.toNat) * 16 ^ ds.length
          + Nat.ofDigits 16 (ds.map UInt8.toNat).reverse := by
      rw [List.map_cons, Nat.ofDigits_reverse_cons, List.length_map, List.length_cons,
        Nat.pow_succ]
      ring
    rw [List.foldlM_cons, hsplit, Option.bind_eq_bind, Option.bind_eq_some_iff]
    constructor
    · rintro ⟨u, hu, hrest⟩
      rw [← append?_eq_some_iff.mp hu]
      exact ih.mp hrest
    · intro hw
      -- The number so far is at most the whole number, so it fits a byte when that does.
      have hle : v.toNat * 16 + d.toNat ≤ w.toNat := by
        have hpos : 0 < 16 ^ ds.length := Nat.pow_pos (by decide)
        have hmul := Nat.le_mul_of_pos_right (v.toNat * 16 + d.toNat) hpos
        omega
      have hu : (UInt8.ofNat (v.toNat * 16 + d.toNat)).toNat = v.toNat * 16 + d.toNat := by
        have hw256 : w.toNat < 256 := w.toNat_lt
        rw [UInt8.toNat_ofNat', Nat.mod_eq_of_lt (by omega)]
      refine ⟨UInt8.ofNat (v.toNat * 16 + d.toNat), append?_eq_some_iff.mpr hu, ?_⟩
      rw [ih, hu]
      exact hw

/-- All characters of a field are digits exactly when it can be taken digit by digit. -/
theorem mapM_digit?_eq_some_iff {field : List Char} {ds : List UInt8} :
    field.mapM digit? = some ds ↔
      (∀ c ∈ field, IsDigit c) ∧ ds.map UInt8.toNat = field.map digitValue := by
  induction field generalizing ds with
  | nil => simp [eq_comm]
  | cons c field ih =>
    rw [List.mapM_cons, List.forall_mem_cons, List.map_cons]
    simp only [Option.bind_eq_bind, Option.bind_eq_some_iff, Option.pure_def, Option.some.injEq,
      digit?_eq_some_iff, ih]
    constructor
    · rintro ⟨d, ⟨hc, hd⟩, ds', ⟨hfield, hds'⟩, rfl⟩
      exact ⟨⟨hc, hfield⟩, by rw [List.map_cons, hd, hds']⟩
    · rintro ⟨⟨hc, hfield⟩, hds⟩
      obtain ⟨d, ds', rfl, hd, hds'⟩ := List.map_eq_cons_iff.mp hds
      exact ⟨d, ⟨hc, hd⟩, ds', ⟨hfield, hds'⟩, rfl⟩

/-- A field of digits is read digit by digit without a failure. -/
theorem exists_mapM_digit?_eq_some {field : List Char} (h : ∀ c ∈ field, IsDigit c) :
    ∃ ds, field.mapM digit? = some ds := by
  refine ⟨field.map fun c => UInt8.ofNat (digitValue c), mapM_digit?_eq_some_iff.mpr ⟨h, ?_⟩⟩
  rw [List.map_map]
  refine List.map_congr_left fun c hc => ?_
  have hlt := digitValue_lt (h c hc)
  rw [Function.comp_apply, UInt8.toNat_ofNat', Nat.mod_eq_of_lt (by omega)]

/-- A field is the byte `v` exactly when it has a digit, has only digits, and they stand for the
number `v`. -/
theorem readByte_eq_ok_iff {field : List Char} {v : UInt8} :
    readByte field = .ok v ↔
      field ≠ [] ∧ (∀ c ∈ field, IsDigit c) ∧ value field = v.toNat := by
  unfold readByte
  cases hm : field.mapM digit? with
  | none =>
    refine ⟨fun h => (by cases h), fun h => ?_⟩
    obtain ⟨ds, hds⟩ := exists_mapM_digit?_eq_some h.2.1
    cases hm.symm.trans hds
  | some ds =>
    obtain ⟨hdigits, hmap⟩ := mapM_digit?_eq_some_iff.mp hm
    cases ds with
    | nil =>
      have hnil : field = [] := List.map_eq_nil_iff.mp hmap.symm
      exact ⟨fun h => (by cases h), fun h => absurd hnil h.1⟩
    | cons d ds =>
      have hne : field ≠ [] := by
        rintro rfl
        cases hmap
      -- From here on both sides are about the loop.
      have hloop : (d :: ds).foldlM append? 0 = some v ↔ value field = v.toNat := by
        rw [foldlM_append?_eq_some_iff, hmap, value, UInt8.toNat_zero, Nat.zero_mul, Nat.zero_add]
        exact eq_comm
      rw [← hloop]
      dsimp only
      cases (d :: ds).foldlM append? 0 with
      | none => exact ⟨fun h => (by cases h), fun h => by cases h.2.2⟩
      | some w =>
        rw [Except.ok.injEq, Option.some.injEq]
        exact ⟨fun h => ⟨hne, hdigits, h⟩, fun h => h.2.2⟩

end ControlStore.Hex
