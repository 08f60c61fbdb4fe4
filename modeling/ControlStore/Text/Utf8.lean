/-!
# `ControlStore.Text.Utf8`: characters as bytes

A text is stored as the UTF-8 encoding of its characters, one after another. Decoding is strict.
`decode?_eq_some_iff` says that it accepts exactly the encodings: a surrogate, an overlong form, a
value past U+10FFFF and a sequence cut short are all refused.
-/

set_option autoImplicit false

namespace ControlStore.Text

/-- The bytes of a text in UTF-8. -/
def encode (s : List Char) : List UInt8 :=
  s.flatMap String.utf8EncodeChar

/-- The text that the bytes encode, if they are valid UTF-8. -/
def decode? (bytes : List UInt8) : Option (List Char) :=
  bytes.toByteArray.utf8Decode?.map Array.toList

/-- Decoding accepts the encodings of texts and nothing else, and gives the text back. -/
theorem decode?_eq_some_iff {bytes : List UInt8} {s : List Char} :
    decode? bytes = some s ↔ bytes = encode s := by
  constructor
  · intro h
    obtain ⟨cs, hcs, rfl⟩ := Option.map_eq_some_iff.mp h
    have hsome : bytes.toByteArray.utf8Decode?.isSome = true := by simp [hcs]
    have henc := ByteArray.utf8Encode_get_utf8Decode? (h := hsome)
    simp only [hcs, Option.get_some, List.utf8Encode] at henc
    exact (List.toByteArray_inj.mp henc).symm
  · rintro rfl
    have hdec := List.utf8Decode?_utf8Encode (l := s)
    simp only [List.utf8Encode] at hdec
    simp [decode?, encode, hdec]

/-- Texts behind one another have their encodings behind one another. -/
@[simp] theorem encode_append (s t : List Char) : encode (s ++ t) = encode s ++ encode t := by
  simp [encode]

/-- A text of ASCII characters has one byte for each of them. -/
theorem length_encode_of_ascii {s : List Char} (h : ∀ c ∈ s, c.toNat < 128) :
    (encode s).length = s.length := by
  induction s with
  | nil => rfl
  | cons c s ih =>
    have hc : c.utf8Size = 1 := if_pos (Nat.le_of_lt_succ (h c List.mem_cons_self))
    have hs := ih fun d hd => h d (List.mem_cons_of_mem c hd)
    rw [encode, List.flatMap_cons, List.length_append, String.length_utf8EncodeChar, hc,
      ← encode, hs, List.length_cons, Nat.add_comm]

end ControlStore.Text
