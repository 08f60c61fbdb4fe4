import ControlStore.Compilation

/-!
# `ControlStore.Proofs.Listing`: the listing and the images

The listing of some tables is a text of fixed shape. Every byte of an image takes seven characters
and every line of a block takes 63, whatever the bytes are. So the text falls into its lines and
literals in one way only, and a literal tells its byte.

`listing_eq_iff` states what follows: two listings are the same exactly when the three images are.
-/

set_option autoImplicit false

namespace ControlStore

namespace Hex

/-- Different values below 16 have different digits. -/
theorem upperDigit_inj : ∀ m < 16, ∀ n < 16, upperDigit m = upperDigit n → m = n := by
  decide

/-- Different bytes have different digits. -/
theorem ofByte_inj {b c : UInt8} (h : ofByte b = ofByte c) : b = c := by
  simp only [ofByte, List.cons.injEq, and_true] at h
  have hb := b.toNat_lt
  have hc := c.toNat_lt
  have hhigh := upperDigit_inj _ (by omega) _ (by omega) h.1
  have hlow := upperDigit_inj _ (by omega) _ (by omega) h.2
  rw [← UInt8.toNat_inj]
  omega

end Hex

/-- Different texts have different encodings. -/
theorem Text.encode_inj {s t : List Char} (h : encode s = encode t) : s = t := by
  have hs : decode? (encode s) = some s := decode?_eq_some_iff.mpr rfl
  have ht : decode? (encode s) = some t := decode?_eq_some_iff.mpr h
  exact Option.some.inj (hs.symm.trans ht)

/-- Texts that are put together from parts of the same lengths are the same only if all of their
parts are. -/
theorem flatMap_eq_iff_of_length {ι α : Type} {f g : ι → List α} {l : List ι}
    (hlen : ∀ i, (f i).length = (g i).length) :
    l.flatMap f = l.flatMap g ↔ ∀ i ∈ l, f i = g i := by
  induction l with
  | nil => simp
  | cons i l ih =>
    rw [List.flatMap_cons, List.flatMap_cons, List.forall_mem_cons, ← ih]
    constructor
    · exact fun h => List.append_inj h (hlen i)
    · rintro ⟨hi, hl⟩
      rw [hi, hl]

namespace Listing

/-- The text of line `n` of a block. -/
def lineText (image : ByteTable UInt8) (n : Nat) : List Char :=
  (List.range bytesPerLine).flatMap
      (fun i => literal (image.get (UInt8.ofNat (n * bytesPerLine + i)))) ++
    lineEnd (UInt8.ofNat (n * bytesPerLine))

/-- The text of a block. -/
def blockText (image : ByteTable UInt8) : List Char :=
  (List.range linesPerBlock).flatMap (lineText image)

/-- The pieces of a line make up its text. -/
theorem flatten_linePieces (image : ByteTable UInt8) (n : Nat) :
    (linePieces image n).flatten = lineText image n := by
  rw [linePieces, List.flatten_append, List.flatten_singleton, lineText, List.flatMap_def]

/-- The pieces of a block make up its text. -/
theorem flatten_blockPieces (image : ByteTable UInt8) :
    (blockPieces image).flatten = blockText image := by
  rw [blockPieces, List.flatMap_def, List.flatten_flatten, List.map_map, blockText,
    List.flatMap_def]
  exact congrArg List.flatten (List.map_congr_left fun n _ => flatten_linePieces image n)

/-- The text is that of the three blocks, with an empty line between them. -/
theorem text_eq (roms : RomSet) :
    text roms = blockText roms.opcodeImage ++ ['\n'] ++ blockText roms.stateImage ++ ['\n'] ++
      blockText roms.controlImage := by
  rw [text, pieces]
  simp only [List.flatten_append, List.flatten_singleton, flatten_blockPieces]

/-- The literal of a byte has seven characters. -/
@[simp] theorem length_literal (b : UInt8) : (literal b).length = 7 := rfl

/-- Different bytes have different literals. -/
theorem literal_inj {b c : UInt8} (h : literal b = literal c) : b = c := by
  obtain ⟨hfront, -⟩ := List.append_inj h rfl
  exact Hex.ofByte_inj (List.append_cancel_left hfront)

/-- Eight literals and the comment with its newline make 63 characters. -/
@[simp] theorem length_lineText (image : ByteTable UInt8) (n : Nat) :
    (lineText image n).length = 63 := by
  simp only [lineText, List.length_append, List.length_flatMap, length_literal, List.map_const',
    List.length_range, List.sum_replicate_nat]
  rfl

/-- A block has 32 lines of 63 characters. -/
@[simp] theorem length_blockText (image : ByteTable UInt8) : (blockText image).length = 2016 := by
  simp only [blockText, List.length_flatMap, length_lineText, List.map_const', List.length_range,
    List.sum_replicate_nat]
  rfl

/-- The text of a line tells each of its eight bytes. -/
theorem get_eq_of_lineText_eq {image image' : ByteTable UInt8} {n : Nat}
    (h : lineText image n = lineText image' n) {i : Nat} (hi : i < bytesPerLine) :
    image.get (UInt8.ofNat (n * bytesPerLine + i)) =
      image'.get (UInt8.ofNat (n * bytesPerLine + i)) := by
  have hliterals := List.append_cancel_right h
  rw [flatMap_eq_iff_of_length fun i => by simp] at hliterals
  exact literal_inj (hliterals i (List.mem_range.mpr hi))

/-- A block tells every byte of its image. -/
theorem blockText_inj {image image' : ByteTable UInt8} (h : blockText image = blockText image') :
    image = image' := by
  rw [blockText, blockText, flatMap_eq_iff_of_length fun n => by
    simp] at h
  refine ByteTable.ext_get fun b => ?_
  have hb := b.toNat_lt
  -- The byte stands on line `b / 8`, at place `b % 8`.
  have hline := h (b.toNat / bytesPerLine)
    (List.mem_range.mpr (by simp only [bytesPerLine, linesPerBlock]; omega))
  have hget := get_eq_of_lineText_eq hline (Nat.mod_lt b.toNat (by decide))
  rwa [Nat.mul_comm, Nat.div_add_mod, UInt8.ofNat_toNat] at hget

end Listing

/-- The listing of some tables shows their images and nothing else. -/
theorem RomSet.listing_eq_iff {roms roms' : RomSet} :
    roms.listing = roms'.listing ↔ roms.opcodeImage = roms'.opcodeImage ∧
      roms.stateImage = roms'.stateImage ∧ roms.controlImage = roms'.controlImage := by
  rw [listing_eq_encode_text, listing_eq_encode_text]
  constructor
  · intro h
    have htext := Text.encode_inj h
    simp only [Listing.text_eq, List.append_assoc] at htext
    -- Cut the blocks off one after another. All of them have the same length.
    obtain ⟨hopcode, hrest⟩ := List.append_inj htext (by simp only [Listing.length_blockText])
    obtain ⟨hstate, hrest⟩ := List.append_inj (List.append_cancel_left hrest)
      (by simp only [Listing.length_blockText])
    exact ⟨Listing.blockText_inj hopcode, Listing.blockText_inj hstate,
      Listing.blockText_inj (List.append_cancel_left hrest)⟩
  · rintro ⟨hopcode, hstate, hcontrol⟩
    rw [Listing.text_eq, Listing.text_eq, hopcode, hstate, hcontrol]

end ControlStore
