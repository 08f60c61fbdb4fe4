import ControlStore.Proofs.ReadBack

/-!
# `ControlStore.Proofs.FullSink`: a listing that does not fit

A sink with a limit takes of each piece what still fits. The first piece that does not fit whole
fills the sink and ends the writing, so no piece behind it is tried. `writePieces_of_limit` says
what this comes to: the sink holds the text of all pieces up to its limit, and the writing fails
exactly when the text is longer than that. How the text was cut into pieces shows in neither.

* `write_of_limit`: one piece.
* `writePieces_of_limit`: any number of pieces, from a sink in any state.
* `emit_ofLimit_holds_first`: the listing of any tables, for every limit. It is compared with what
  a sink without a limit holds.
-/

set_option autoImplicit false

namespace ControlStore.Sink

/-- A piece is taken up to the room that is left, and the write succeeds when this is all of it. -/
theorem write_of_limit {sink : Sink} {limit : Nat} (h : sink.limit = some limit)
    (bytes : List UInt8) :
    sink.write bytes =
      ({ sink with held := sink.held ++ bytes.take (limit - sink.held.size) },
        if bytes.length ≤ limit - sink.held.size then none else some .full) := by
  have hfitting : sink.fitting bytes = bytes.take (limit - sink.held.size) := by
    simp [fitting, h]
  have hwhole : (bytes.take (limit - sink.held.size)).length = bytes.length ↔
      bytes.length ≤ limit - sink.held.size := by
    rw [List.length_take]
    exact min_eq_right_iff
  simp only [write, hfitting, hwhole]

/-- Pieces are taken as their whole text is, up to the limit. -/
theorem writePieces_of_limit {sink : Sink} {limit : Nat} (h : sink.limit = some limit)
    (pieces : List (List Char)) :
    sink.writePieces pieces =
      ({ sink with
          held := sink.held ++ (Text.encode pieces.flatten).take (limit - sink.held.size) },
        if (Text.encode pieces.flatten).length ≤ limit - sink.held.size then none
        else some .full) := by
  induction pieces generalizing sink with
  | nil => simp [writePieces, Text.encode]
  | cons piece pieces ih =>
    rw [writePieces, write_of_limit h, List.flatten_cons, Text.encode_append, List.length_append]
    generalize Text.encode piece = front
    by_cases hfit : front.length ≤ limit - sink.held.size
    · -- The piece is taken whole, and the others go to the room that it leaves.
      rw [if_pos hfit, List.take_append, List.take_of_length_le hfit]
      show writePieces { sink with held := sink.held ++ front } pieces = _
      have hroom : limit - (sink.held ++ front).size = limit - sink.held.size - front.length := by
        rw [← Array.length_toList, Array.toList_appendList, List.length_append,
          Array.length_toList, Nat.sub_add_eq]
      have hassoc (rest : List UInt8) : sink.held ++ front ++ rest = sink.held ++ (front ++ rest) :=
        Array.toList_inj.mp (by simp)
      have hiff (n : Nat) : n ≤ limit - sink.held.size - front.length ↔
          front.length + n ≤ limit - sink.held.size := by omega
      rw [@ih { sink with held := sink.held ++ front } h]
      simp only [hroom, hassoc, hiff]
    · -- The piece fills the sink, and nothing behind it is written.
      rw [if_neg hfit, if_neg (by omega), List.take_append_of_le_length (by omega)]

/-- An empty sink is filled with the listing up to its limit. -/
theorem emit_ofLimit (roms : RomSet) (limit : Nat) :
    (ofLimit limit).emit roms =
      ({ limit := some limit, held := ((Text.encode (Listing.text roms)).take limit).toArray },
        if 6050 ≤ limit then none else some .full) := by
  rw [emit, writePieces_of_limit rfl, ← Listing.text, Listing.length_encode_text]
  generalize Text.encode (Listing.text roms) = bytes
  simp [ofLimit]

/-- Whatever the tables hold and whatever the limit is, a listing is written without a fault exactly
when the limit is at least the 6050 bytes that a sink without a limit takes, and the only fault is
that a piece was not written whole. In each case the sink then holds the first of those bytes, as
many as the limit allows. The outcome is the same for every other cutting of the text into
pieces. -/
theorem emit_ofLimit_holds_first (roms : RomSet) (limit : Nat) :
    (unbounded.emit roms).1.held.size = 6050 ∧
    (((ofLimit limit).emit roms).2 = none ↔ (unbounded.emit roms).1.held.size ≤ limit) ∧
    (∀ fault, ((ofLimit limit).emit roms).2 = some fault →
      fault.message = "failed to write whole buffer") ∧
    ((ofLimit limit).emit roms).1.held.toList =
      (unbounded.emit roms).1.held.toList.take (min limit 6050) ∧
    ∀ pieces, pieces.flatten = Listing.text roms →
      (ofLimit limit).writePieces pieces = (ofLimit limit).emit roms := by
  have hsize : (unbounded.emit roms).1.held.size = 6050 := by
    rw [emit_unbounded, List.size_toArray, Listing.length_encode_text]
  refine ⟨hsize, ?_, ?_, ?_, ?_⟩
  · rw [hsize, emit_ofLimit]
    by_cases hlimit : 6050 ≤ limit <;> simp [hlimit]
  · intro fault _
    cases fault with
    | full => rfl
  · rw [emit_ofLimit, emit_unbounded]
    show (Text.encode (Listing.text roms)).take limit = _
    rw [List.take_eq_take_min, Listing.length_encode_text]
  · intro pieces hpieces
    rw [emit, writePieces_of_limit rfl, writePieces_of_limit rfl, hpieces]
    rfl

end ControlStore.Sink
