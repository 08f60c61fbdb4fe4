import ControlStore.Proofs.Hex
import ControlStore.Proofs.Listing

/-!
# `ControlStore.Proofs.ReadBack`: the tables in a listing

A listing is meant to be read again, so this module says how it looks and how it is read, without
a look at how it is written. `HasLayout` gives the form of the text: three blocks of 32 lines with
an empty line between them, where a line has eight tokens and the address of the first of its bytes.
`blockBytes?` reads a block: it cuts the text at newlines and a line at spaces, and takes the byte
out of each token.

* `length_encode_text`: a listing has 6050 bytes, whatever the tables hold.
* `hasLayout_text`: the text of a listing has the layout.
* `blockBytes?_text`: the blocks are read as the three images of 256 bytes.
* `emit_unbounded_reads_back`: all of this about what is written to a sink without a limit, with
  the bytes given by the entries of the tables.

Reading works because the characters that it cuts at are not in what stands between them:
`splitOn_flatMap_append` is used once for spaces and once for newlines.
-/

set_option autoImplicit false

namespace ControlStore

namespace Hex

/-- A hexadecimal digit in upper case. -/
def IsUpperDigit (c : Char) : Prop :=
  ('0' ≤ c ∧ c ≤ '9') ∨ ('A' ≤ c ∧ c ≤ 'F')

instance (c : Char) : Decidable (IsUpperDigit c) :=
  inferInstanceAs (Decidable (_ ∨ _))

/-- The number `n` in exactly two digits, in upper case. -/
structure TwoDigits (n : Nat) (digits : List Char) : Prop where
  length_eq : digits.length = 2
  upper : ∀ c ∈ digits, IsUpperDigit c
  value_eq : value digits = n

/-- The digits that are written are upper case. -/
theorem isUpperDigit_upperDigit : ∀ n < 16, IsUpperDigit (upperDigit n) := by
  decide

/-- The digit that is written for a value has this value. -/
theorem digitValue_upperDigit : ∀ n < 16, digitValue (upperDigit n) = n := by
  decide

/-- A byte is written with two digits of its value. -/
theorem twoDigits_ofByte (b : UInt8) : TwoDigits b.toNat (ofByte b) := by
  have hb := b.toNat_lt
  have hhigh : b.toNat / 16 < 16 := by omega
  have hlow : b.toNat % 16 < 16 := by omega
  refine ⟨rfl, ?_, ?_⟩
  · intro c hc
    simp only [ofByte, List.mem_cons, List.not_mem_nil, or_false] at hc
    rcases hc with rfl | rfl
    · exact isUpperDigit_upperDigit _ hhigh
    · exact isUpperDigit_upperDigit _ hlow
  · have hvalue : value (ofByte b) = b.toNat % 16 + 16 * (b.toNat / 16) := by
      simp [value, ofByte, Nat.ofDigits_cons, digitValue_upperDigit _ hhigh,
        digitValue_upperDigit _ hlow]
    rw [hvalue, Nat.mod_add_div]

/-- An upper case digit is a digit. -/
theorem IsUpperDigit.isDigit {c : Char} (h : IsUpperDigit c) : IsDigit c := by
  rcases h with h | h
  · exact Or.inl h
  · exact Or.inr (Or.inl h)

/-- Two digits with the value of a byte are read as this byte. -/
theorem TwoDigits.readByte_eq {digits : List Char} {b : UInt8} (h : TwoDigits b.toNat digits) :
    readByte digits = .ok b := by
  refine readByte_eq_ok_iff.mpr ⟨?_, fun c hc => (h.upper c hc).isDigit, h.value_eq⟩
  intro hnil
  have hlength := h.length_eq
  rw [hnil] at hlength
  cases hlength

/-- A digit is neither a blank nor a line end, and it takes one byte. -/
theorem IsUpperDigit.range {c : Char} (h : IsUpperDigit c) : 32 < c.toNat ∧ c.toNat < 128 := by
  simp only [IsUpperDigit, le_iff_toNat_le, Char.reduceToNat] at h
  omega

end Hex

/-- Parts that end in a separator are cut at it, when they do not hold it themselves. -/
theorem splitOn_flatMap_append {sep : Char} {parts : List (List Char)}
    (h : ∀ part ∈ parts, sep ∉ part) (rest : List Char) :
    (parts.flatMap (· ++ [sep]) ++ rest).splitOn sep = parts ++ rest.splitOn sep := by
  induction parts with
  | nil => rfl
  | cons part parts ih =>
    have hpart : sep ∉ part := h part List.mem_cons_self
    have hparts := ih fun p hp => h p (List.mem_cons_of_mem part hp)
    rw [List.flatMap_cons, List.append_assoc, List.append_assoc, List.singleton_append,
      List.splitOn_append_cons_self_of_not_mem hpart, hparts, List.cons_append]

/-- Numbers below `m * k`, taken `k` at a time. -/
theorem flatMap_range_map_range {α : Type} (f : Nat → α) (m k : Nat) :
    (List.range m).flatMap (fun n => (List.range k).map fun i => f (n * k + i)) =
      (List.range (m * k)).map f := by
  induction m with
  | zero => simp
  | succ m ih =>
    rw [List.range_succ, List.flatMap_append, ih, Nat.succ_mul, List.range_add, List.map_append,
      List.flatMap_singleton, List.map_map]
    rfl

namespace Listing

/-! ### The form of a listing -/

/-- A token: two digits in upper case between quotes, with an `x` before and a comma behind. -/
def IsToken (token : List Char) : Prop :=
  ∃ n digits, Hex.TwoDigits n digits ∧ token = ['x', '"'] ++ digits ++ ['"', ',']

/-- Line `r` of a block, counted from zero: eight tokens, each with a space behind it, and the
address of its first byte. -/
def HasLineForm (r : Nat) (line : List Char) : Prop :=
  ∃ (tokens : List (List Char)) (address : List Char), tokens.length = 8 ∧
    (∀ token ∈ tokens, IsToken token) ∧ Hex.TwoDigits (8 * r) address ∧
    line = tokens.flatMap (· ++ [' ']) ++ ['-', '-', ' '] ++ address ++ ['H']

/-- A block has 32 lines. -/
structure HasBlockForm (block : List (List Char)) : Prop where
  length_eq : block.length = 32
  line : ∀ r line, block[r]? = some line → HasLineForm r line

/-- Three blocks with one empty line between them. Every line ends in a newline. -/
def HasLayout (text : List Char) : Prop :=
  ∃ first second third, HasBlockForm first ∧ HasBlockForm second ∧ HasBlockForm third ∧
    text = (first ++ [[]] ++ second ++ [[]] ++ third).flatMap (· ++ ['\n'])

/-! ### Reading a listing -/

/-- The byte in a token. -/
def tokenByte? : List Char → Option UInt8
  | ['x', '"', high, low, '"', ','] => (Hex.readByte [high, low]).toOption
  | _ => none

/-- The bytes in the first eight words of a line. -/
def lineBytes? (line : List Char) : Option (List UInt8) :=
  ((line.splitOn ' ').take 8).mapM tokenByte?

/-- The lines of block `n`, counted from zero. There is one more line between two blocks. -/
def blockLines (text : List Char) (n : Nat) : List (List Char) :=
  ((text.splitOn '\n').drop (33 * n)).take 32

/-- The bytes of block `n`. -/
def blockBytes? (text : List Char) (n : Nat) : Option (List UInt8) :=
  ((blockLines text n).mapM lineBytes?).map List.flatten

/-- The blocks of a text are read as 256 bytes each, which hold the entries of the tables. -/
structure Shows (text : List Char) (roms : RomSet) : Prop where
  /-- Byte `o` of the first block is the address of the opcode `o`, or 0 if it has none. -/
  opcodes : ∃ bytes, blockBytes? text 0 = some bytes ∧ bytes.length = 256 ∧
    ∀ o : UInt8, bytes[o.toNat]? = some ((roms.opcodes.get o).getD 0)
  /-- The second block has two bytes for each of the first 128 states, and 0 behind the last. -/
  states : ∃ bytes, blockBytes? text 1 = some bytes ∧ bytes.length = 256 ∧
    ∀ i < 128, bytes[2 * i]? = some ((roms.states[i]?.map (·.controlAddress)).getD 0) ∧
      bytes[2 * i + 1]? = some ((roms.states[i]?.map (·.next.address)).getD 0)
  /-- The third block has two bytes for each of the first 128 control pairs, and 0 behind the
  last. -/
  controls : ∃ bytes, blockBytes? text 2 = some bytes ∧ bytes.length = 256 ∧
    ∀ i < 128, bytes[2 * i]? = some ((roms.controls[i]?.map (·.first)).getD 0) ∧
      bytes[2 * i + 1]? = some ((roms.controls[i]?.map (·.second)).getD 0)

/-! ### The lines as they are written -/

/-- The token of a byte. -/
def token (b : UInt8) : List Char :=
  ['x', '"'] ++ Hex.ofByte b ++ ['"', ',']

/-- The bytes of line `n` of a block. -/
def rowBytes (image : ByteTable UInt8) (n : Nat) : List UInt8 :=
  (List.range bytesPerLine).map fun i => image.get (UInt8.ofNat (n * bytesPerLine + i))

/-- Line `n` of a block, without its newline. -/
def rowText (image : ByteTable UInt8) (n : Nat) : List Char :=
  ((rowBytes image n).map token).flatMap (· ++ [' ']) ++ ['-', '-', ' '] ++
    Hex.ofByte (UInt8.ofNat (n * bytesPerLine)) ++ ['H']

/-- The lines of a block. -/
def blockRows (image : ByteTable UInt8) : List (List Char) :=
  (List.range linesPerBlock).map (rowText image)

/-- A line is its row with a newline behind it. -/
theorem lineText_eq_rowText_concat (image : ByteTable UInt8) (n : Nat) :
    lineText image n = rowText image n ++ ['\n'] := by
  simp only [lineText, rowText, rowBytes, lineEnd, literal, token, List.flatMap_map,
    List.append_assoc, List.cons_append, List.nil_append]

/-- A block is its rows with a newline behind each. -/
theorem blockText_eq_flatMap_blockRows (image : ByteTable UInt8) :
    blockText image = (blockRows image).flatMap (· ++ ['\n']) := by
  have hline : lineText image = fun n => rowText image n ++ ['\n'] :=
    funext (lineText_eq_rowText_concat image)
  rw [blockText, blockRows, List.flatMap_map, hline]

/-- The listing is the rows of its blocks and the empty rows between them, with a newline behind
each. -/
theorem text_eq_flatMap_blockRows (roms : RomSet) :
    text roms = (blockRows roms.opcodeImage ++ [[]] ++ blockRows roms.stateImage ++ [[]] ++
      blockRows roms.controlImage).flatMap (· ++ ['\n']) := by
  simp only [text_eq, blockText_eq_flatMap_blockRows, List.flatMap_append, List.flatMap_singleton,
    List.nil_append]

/-! ### The written lines have the form -/

/-- A byte is written as a token. -/
theorem isToken_token (b : UInt8) : IsToken (token b) :=
  ⟨b.toNat, Hex.ofByte b, Hex.twoDigits_ofByte b, rfl⟩

/-- A token holds no blank, and each of its characters takes one byte. -/
theorem IsToken.range {token : List Char} (h : IsToken token) :
    ∀ c ∈ token, 32 < c.toNat ∧ c.toNat < 128 := by
  obtain ⟨n, digits, hdigits, rfl⟩ := h
  intro c hc
  simp only [List.mem_append, List.mem_cons, List.not_mem_nil, or_false] at hc
  rcases hc with ((rfl | rfl) | hc) | (rfl | rfl)
  · decide
  · decide
  · exact (hdigits.upper c hc).range
  · decide
  · decide

/-- Each row has the form of a line, with its own address. -/
theorem hasLineForm_rowText (image : ByteTable UInt8) {n : Nat} (hn : n < linesPerBlock) :
    HasLineForm n (rowText image n) := by
  have haddress : (UInt8.ofNat (n * bytesPerLine)).toNat = 8 * n := by
    simp only [linesPerBlock] at hn
    simp only [bytesPerLine, UInt8.toNat_ofNat']
    omega
  refine ⟨(rowBytes image n).map token, Hex.ofByte (UInt8.ofNat (n * bytesPerLine)), ?_, ?_, ?_,
    rfl⟩
  · simp [rowBytes, bytesPerLine]
  · intro t ht
    obtain ⟨b, -, rfl⟩ := List.mem_map.mp ht
    exact isToken_token b
  · rw [← haddress]
    exact Hex.twoDigits_ofByte _

/-- A line holds no newline, and each of its characters takes one byte. -/
theorem HasLineForm.range {r : Nat} {line : List Char} (h : HasLineForm r line) :
    ∀ c ∈ line, 32 ≤ c.toNat ∧ c.toNat < 128 := by
  obtain ⟨tokens, address, -, htokens, haddress, rfl⟩ := h
  intro c hc
  simp only [List.mem_append, List.mem_flatMap, List.mem_cons, List.not_mem_nil, or_false] at hc
  rcases hc with ((⟨t, ht, hc | rfl⟩ | (rfl | rfl | rfl)) | hc) | rfl
  · obtain ⟨hlow, hhigh⟩ := (htokens t ht).range c hc
    exact ⟨le_of_lt hlow, hhigh⟩
  · decide
  · decide
  · decide
  · decide
  · obtain ⟨hlow, hhigh⟩ := (haddress.upper c hc).range
    exact ⟨le_of_lt hlow, hhigh⟩
  · decide

/-- A block has 32 rows. -/
@[simp] theorem length_blockRows (image : ByteTable UInt8) : (blockRows image).length = 32 := by
  rw [blockRows, List.length_map, List.length_range]
  rfl

/-- The rows of an image have the form of a block. -/
theorem hasBlockForm_blockRows (image : ByteTable UInt8) : HasBlockForm (blockRows image) where
  length_eq := length_blockRows image
  line r line hline := by
    obtain ⟨hr, rfl⟩ := List.getElem?_eq_some_iff.mp hline
    have hlines : r < linesPerBlock := by rwa [length_blockRows] at hr
    simp only [blockRows, List.getElem_map, List.getElem_range]
    exact hasLineForm_rowText image hlines

/-- Every listing has the layout. -/
theorem hasLayout_text (roms : RomSet) : HasLayout (text roms) :=
  ⟨_, _, _, hasBlockForm_blockRows roms.opcodeImage, hasBlockForm_blockRows roms.stateImage,
    hasBlockForm_blockRows roms.controlImage, text_eq_flatMap_blockRows roms⟩

/-- All characters of a block are printable ASCII characters. -/
theorem HasBlockForm.range {block : List (List Char)} (h : HasBlockForm block) :
    ∀ line ∈ block, ∀ c ∈ line, 32 ≤ c.toNat ∧ c.toNat < 128 := by
  intro line hline
  obtain ⟨r, hr⟩ := List.mem_iff_getElem?.mp hline
  exact (h.line r line hr).range

/-- The text of a layout is ASCII. -/
theorem HasLayout.ascii {text : List Char} (h : HasLayout text) : ∀ c ∈ text, c.toNat < 128 := by
  obtain ⟨first, second, third, hfirst, hsecond, hthird, rfl⟩ := h
  intro c hc
  simp only [List.mem_flatMap, List.mem_append, List.mem_singleton] at hc
  obtain ⟨line, hline, hc | rfl⟩ := hc
  · rcases hline with (((hline | rfl) | hline) | rfl) | hline
    · exact (hfirst.range line hline c hc).2
    · cases hc
    · exact (hsecond.range line hline c hc).2
    · cases hc
    · exact (hthird.range line hline c hc).2
  · decide

/-! ### Reading the written lines -/

/-- The token of a byte is read as this byte. -/
@[simp] theorem tokenByte?_token (b : UInt8) : tokenByte? (token b) = some b := by
  show (Hex.readByte (Hex.ofByte b)).toOption = some b
  rw [(Hex.twoDigits_ofByte b).readByte_eq]
  rfl

/-- What is read back from each item of a list is read back from the whole list. -/
theorem mapM_map_of_eq_some {α β γ : Type} {f : α → β} {g : β → Option γ} {k : α → γ}
    (h : ∀ a, g (f a) = some (k a)) (l : List α) : (l.map f).mapM g = some (l.map k) := by
  have hcomp : g ∘ f = fun a => pure (k a) := funext h
  rw [List.mapM_map, hcomp, List.mapM_pure]
  rfl

/-- A line is read as the bytes that were written on it. -/
theorem lineBytes?_rowText (image : ByteTable UInt8) (n : Nat) :
    lineBytes? (rowText image n) = some (rowBytes image n) := by
  have hspace : ∀ t ∈ (rowBytes image n).map token, ' ' ∉ t := by
    intro t ht hmem
    obtain ⟨b, -, rfl⟩ := List.mem_map.mp ht
    exact absurd ((isToken_token b).range ' ' hmem).1 (by decide)
  have hlength : ((rowBytes image n).map token).length = 8 := by simp [rowBytes, bytesPerLine]
  rw [lineBytes?, rowText, List.append_assoc, List.append_assoc, splitOn_flatMap_append hspace,
    List.take_left' hlength, mapM_map_of_eq_some tokenByte?_token, List.map_id']

/-- The bytes of the rows, one row after another, are the cells of the image. -/
theorem flatten_map_rowBytes (image : ByteTable UInt8) :
    ((List.range linesPerBlock).map (rowBytes image)).flatten = image.toList := by
  rw [← List.flatMap_def, ByteTable.toList_eq_map_range]
  exact flatMap_range_map_range (fun i => image.get (UInt8.ofNat i)) linesPerBlock bytesPerLine

/-- The lines of a block are read as the image that was written. -/
theorem mapM_lineBytes?_blockRows (image : ByteTable UInt8) :
    ((blockRows image).mapM lineBytes?).map List.flatten = some image.toList := by
  rw [blockRows, mapM_map_of_eq_some (lineBytes?_rowText image), Option.map_some,
    flatten_map_rowBytes]

/-- Cut at its newlines, the listing falls into its rows, with an empty one at the end. -/
theorem splitOn_text (roms : RomSet) :
    (text roms).splitOn '\n' = blockRows roms.opcodeImage ++ [[]] ++ blockRows roms.stateImage ++
      [[]] ++ blockRows roms.controlImage ++ [[]] := by
  have hnewline : ∀ image, ∀ line ∈ blockRows image, '\n' ∉ line := by
    intro image line hline hmem
    exact absurd ((hasBlockForm_blockRows image).range line hline '\n' hmem).1 (by decide)
  rw [text_eq_flatMap_blockRows, ← List.append_nil (List.flatMap _ _), splitOn_flatMap_append,
    List.splitOn_nil]
  intro line hline
  simp only [List.mem_append, List.mem_singleton] at hline
  rcases hline with (((hline | rfl) | hline) | rfl) | hline
  · exact hnewline _ line hline
  · exact List.not_mem_nil
  · exact hnewline _ line hline
  · exact List.not_mem_nil
  · exact hnewline _ line hline

/-- Block `n` is read as an image that stands behind the lines before the block. -/
theorem blockBytes?_of_splitOn {text : List Char} {n : Nat} {before after : List (List Char)}
    {image : ByteTable UInt8}
    (h : text.splitOn '\n' = before ++ (blockRows image ++ after))
    (hbefore : before.length = 33 * n) : blockBytes? text n = some image.toList := by
  rw [blockBytes?, blockLines, h, List.drop_left' hbefore,
    List.take_left' (length_blockRows image), mapM_lineBytes?_blockRows]

/-- The blocks are read as the three images. -/
theorem blockBytes?_text (roms : RomSet) :
    blockBytes? (text roms) 0 = some roms.opcodeImage.toList ∧
    blockBytes? (text roms) 1 = some roms.stateImage.toList ∧
    blockBytes? (text roms) 2 = some roms.controlImage.toList := by
  have hsplit := splitOn_text roms
  simp only [List.append_assoc] at hsplit
  refine ⟨?_, ?_, ?_⟩
  · exact blockBytes?_of_splitOn (hsplit.trans (List.nil_append _).symm) rfl
  · have hbefore : (blockRows roms.opcodeImage ++ [[]]).length = 33 * 1 := by
      simp
    exact blockBytes?_of_splitOn (by rw [hsplit, List.append_assoc]) hbefore
  · have hbefore : (blockRows roms.opcodeImage ++ [[]] ++ blockRows roms.stateImage ++
        [[]]).length = 33 * 2 := by
      simp
    have hlast : (text roms).splitOn '\n' = blockRows roms.opcodeImage ++ [[]] ++
        blockRows roms.stateImage ++ [[]] ++ (blockRows roms.controlImage ++ [[]]) := by
      rw [hsplit]
      simp only [List.append_assoc]
    exact blockBytes?_of_splitOn hlast hbefore

/-- An image of two-byte entries holds each entry at its two addresses, and 0 behind the last. -/
theorem getElem?_toList_pairImage (entries : List (UInt8 × UInt8)) {i : Nat} (hi : i < capacity) :
    (RomSet.pairImage entries).toList[2 * i]? = some ((entries[i]?.map (·.1)).getD 0) ∧
    (RomSet.pairImage entries).toList[2 * i + 1]? = some ((entries[i]?.map (·.2)).getD 0) := by
  rw [← RomSet.get_pairImage_even entries hi, ← RomSet.get_pairImage_odd entries hi,
    ← toNat_entryAddress_add_one hi, ← toNat_entryAddress hi]
  exact ⟨ByteTable.getElem?_toList _ _, ByteTable.getElem?_toList _ _⟩

/-- The listing of some tables shows all of their bytes. -/
theorem shows_text (roms : RomSet) : Shows (text roms) roms := by
  obtain ⟨hopcodes, hstates, hcontrols⟩ := blockBytes?_text roms
  refine ⟨⟨_, hopcodes, ByteTable.length_toList _, fun o => ?_⟩,
    ⟨_, hstates, ByteTable.length_toList _, fun i hi => ?_⟩,
    ⟨_, hcontrols, ByteTable.length_toList _, fun i hi => ?_⟩⟩
  · rw [ByteTable.getElem?_toList, RomSet.opcodeImage, ByteTable.get_map]
  · obtain ⟨heven, hodd⟩ := getElem?_toList_pairImage
      (roms.states.map fun entry => (entry.controlAddress, entry.next.address)) hi
    rw [List.getElem?_map, Option.map_map] at heven hodd
    exact ⟨heven, hodd⟩
  · obtain ⟨heven, hodd⟩ := getElem?_toList_pairImage
      (roms.controls.map fun pair => (pair.first, pair.second)) hi
    rw [List.getElem?_map, Option.map_map] at heven hodd
    exact ⟨heven, hodd⟩

/-- Every listing has 6050 bytes. -/
@[simp] theorem length_encode_text (roms : RomSet) : (Text.encode (text roms)).length = 6050 := by
  rw [Text.length_encode_of_ascii (hasLayout_text roms).ascii, text_eq]
  simp only [List.length_append, length_blockText, List.length_singleton]

end Listing

/-- Whatever the tables hold, a sink without a limit takes 6050 bytes. They are a text of three
blocks in the form of a listing, from which the 256 bytes of each table are read back. Two sets of
tables have the same text exactly when their images are the same. -/
theorem Sink.emit_unbounded_reads_back (roms : RomSet) :
    (∃ text, unbounded.emit roms = ({ held := (Text.encode text).toArray }, none) ∧
      (Text.encode text).length = 6050 ∧ Listing.HasLayout text ∧ Listing.Shows text roms) ∧
    ∀ roms' : RomSet, (unbounded.emit roms).1 = (unbounded.emit roms').1 ↔
      roms.opcodeImage = roms'.opcodeImage ∧ roms.stateImage = roms'.stateImage ∧
        roms.controlImage = roms'.controlImage := by
  refine ⟨⟨Listing.text roms, emit_unbounded roms, Listing.length_encode_text roms,
    Listing.hasLayout_text roms, Listing.shows_text roms⟩, fun roms' => ?_⟩
  rw [← RomSet.listing_eq_iff, emit_unbounded, emit_unbounded, RomSet.listing_eq_encode_text,
    RomSet.listing_eq_encode_text]
  generalize Text.encode (Listing.text roms) = bytes
  generalize Text.encode (Listing.text roms') = bytes'
  simp

end ControlStore
