import ControlStore.Proofs.Renumbering

/-!
# `ControlStore.Proofs.Respacing`: blank lines and carriage returns

Blank lines can be inserted into some data, at its start or behind any newline, and carriage returns
can be appended to any of its lines. A `Respacing` says where and how many, and `Respacing.apply` is
the data after it. Each line then has another number (`Respacing.number`), and nothing else is
different (`apply_only_renumbers`).

* `decode?_concat_return`: a carriage return behind some bytes neither makes them a text nor keeps
  them from being one, because no other character has its byte in its encoding.
* `exists_bare_lines_apply`: the lines of the data afterwards, in terms of the lines before.
  Carriage returns at their ends are left out of the comparison, because a line ending takes one of
  them and a reader sees none (`Reader.readLines_congr_bare`).
* `readLines_inserted_append` is the step, for the lines inserted in front of a line and the line
  itself. `readLines_respaced` is the run, by induction on the lines.

The number of a line depends on what is inserted before it. So lines inserted behind the first fault
change neither the fault nor the reader that is left.
-/

set_option autoImplicit false

namespace ControlStore

/-! ### Carriage returns -/

namespace Text

/-- All bytes of a character past U+007F are 128 or more. -/
theorem le_toNat_of_mem_utf8EncodeChar {c : Char} {b : UInt8} (hc : ¬ c.val.toNat ≤ 127)
    (hb : b ∈ String.utf8EncodeChar c) : 128 ≤ b.toNat := by
  simp only [String.utf8EncodeChar, if_neg hc] at hb
  -- Two, three or four bytes, each of them a remainder with a marker added to it.
  split at hb
  · simp only [List.mem_cons, List.not_mem_nil, or_false] at hb
    rcases hb with rfl | rfl <;> rw [UInt8.toNat_ofNat'] <;> omega
  · split at hb
    · simp only [List.mem_cons, List.not_mem_nil, or_false] at hb
      rcases hb with rfl | rfl | rfl <;> rw [UInt8.toNat_ofNat'] <;> omega
    · simp only [List.mem_cons, List.not_mem_nil, or_false] at hb
      rcases hb with rfl | rfl | rfl | rfl <;> rw [UInt8.toNat_ofNat'] <;> omega

/-- A byte below 128 encodes one character alone, and is no part of any other encoding. -/
theorem utf8EncodeChar_eq_of_mem {c : Char} {b : UInt8} (hb : b ∈ String.utf8EncodeChar c)
    (hascii : b.toNat < 128) : c.toNat = b.toNat ∧ String.utf8EncodeChar c = [b] := by
  have hlow : c.val.toNat ≤ 127 := by
    by_contra hhigh
    exact Nat.not_le_of_lt hascii (le_toNat_of_mem_utf8EncodeChar hhigh hb)
  have hsingle : String.utf8EncodeChar c = [UInt8.ofNat c.val.toNat] := if_pos hlow
  rw [hsingle] at hb ⊢
  obtain rfl := List.mem_singleton.mp hb
  have hnat : (UInt8.ofNat c.val.toNat).toNat = c.val.toNat := by
    rw [UInt8.toNat_ofNat']
    omega
  exact ⟨hnat.symm, rfl⟩

/-- The byte of a carriage return. -/
def returnByte : UInt8 := 13

/-- A carriage return is encoded as its one byte. -/
theorem encode_concat_return (s : List Char) : encode (s ++ ['\r']) = encode s ++ [returnByte] :=
  encode_append s ['\r']

/-- A text whose last byte is that of a carriage return ends in a carriage return. -/
theorem exists_eq_concat_return {bytes : List UInt8} {s : List Char}
    (h : encode s = bytes ++ [returnByte]) : ∃ t, s = t ++ ['\r'] ∧ encode t = bytes := by
  induction s using List.reverseRecOn with
  | nil => simp [encode] at h
  | append_singleton t c _ =>
    have hc : encode [c] = String.utf8EncodeChar c := List.flatMap_singleton _ _
    have hne : String.utf8EncodeChar c ≠ [] := by simp
    rw [encode_append, hc] at h
    -- The last byte belongs to the last character, which then has no other byte.
    have hlast : returnByte ∈ String.utf8EncodeChar c := by
      have hget := congrArg List.getLast? h
      rw [List.getLast?_append_of_ne_nil _ hne, List.getLast?_concat] at hget
      exact List.mem_of_getLast? hget
    obtain ⟨hnat, hsingle⟩ := utf8EncodeChar_eq_of_mem hlast (by decide)
    rw [hsingle] at h
    have hreturn : c = '\r' := Char.toNat_inj.mp hnat
    exact ⟨t, by rw [hreturn], List.append_cancel_right h⟩

/-- A carriage return behind some bytes stands behind their text, if they have one. -/
theorem decode?_concat_return (bytes : List UInt8) :
    decode? (bytes ++ [returnByte]) = (decode? bytes).map (· ++ ['\r']) := by
  refine Option.ext fun s => ?_
  rw [Option.map_eq_some_iff, decode?_eq_some_iff]
  constructor
  · intro h
    obtain ⟨t, rfl, ht⟩ := exists_eq_concat_return h.symm
    exact ⟨t, decode?_eq_some_iff.mpr ht.symm, rfl⟩
  · rintro ⟨t, ht, rfl⟩
    rw [encode_concat_return, decode?_eq_some_iff.mp ht]

end Text

/-- Carriage returns behind some bytes are none of the content of their line. -/
@[simp] theorem Line.bare_ofBytes_append_returns (bytes : List UInt8) (n : Nat) :
    (Line.ofBytes (bytes ++ List.replicate n Text.returnByte)).bare =
      (Line.ofBytes bytes).bare := by
  have hdecode : Text.decode? (bytes ++ List.replicate n Text.returnByte) =
      (Text.decode? bytes).map (· ++ List.replicate n '\r') := by
    induction n with
    | zero => simp
    | succ n ih =>
      rw [List.replicate_succ', ← List.append_assoc, Text.decode?_concat_return, ih,
        Option.map_map]
      simp [Function.comp_def, List.replicate_succ']
  have hreturns : ∀ c ∈ List.replicate n '\r', decide (c = '\r') = true :=
    fun c hc => by simp [List.eq_of_mem_replicate hc]
  unfold Line.ofBytes
  rw [hdecode]
  cases Text.decode? bytes with
  | none => rfl
  | some s => exact congrArg Except.ok (Text.dropTrailing_append s hreturns)

/-! ### Inserted lines -/

/-- A text without newlines has no newline in its encoding. -/
theorem Text.newline_not_mem_encode {text : List Char} (h : '\n' ∉ text) :
    newline ∉ Text.encode text := by
  intro hmem
  obtain ⟨c, hc, hbyte⟩ := List.mem_flatMap.mp hmem
  have hnat : c.toNat = '\n'.toNat := (utf8EncodeChar_eq_of_mem hbyte (by decide)).1
  exact h (Char.toNat_inj.mp hnat ▸ hc)

/-- The encoding of a text is read as this text. -/
@[simp] theorem Line.ofBytes_encode (text : List Char) :
    Line.ofBytes (Text.encode text) = .ok text := by
  rw [Line.ofBytes, Text.decode?_eq_some_iff.mpr rfl]

/-- Texts without newlines, each with a newline behind it, are lines in front of other lines. -/
theorem Source.bare_lines_flatMap_newline_append {texts : List (List Char)}
    (h : ∀ text ∈ texts, '\n' ∉ text) (after : List UInt8) :
    (lines { bytes := texts.flatMap (fun text => Text.encode text ++ [newline]) ++ after }).map
        Line.bare =
      (texts.map Except.ok ++ lines { bytes := after }).map Line.bare := by
  induction texts with
  | nil => rfl
  | cons text texts ih =>
    have htext : newline ∉ Text.encode text :=
      Text.newline_not_mem_encode (h text List.mem_cons_self)
    have hrest := ih fun other hother => h other (List.mem_cons_of_mem _ hother)
    rw [List.flatMap_cons, List.append_assoc, List.append_assoc, List.singleton_append,
      lines_append_newline_cons htext, List.map_cons, Line.bare_ofTerminated, Line.ofBytes_encode,
      hrest]
    rfl

/-- Lines to insert and carriage returns to append, each by the number of newlines before them. -/
structure Respacing where
  /-- The lines that are inserted behind the first `k` newlines, without their newlines. -/
  inserted : Nat → List (List Char)
  /-- The number of carriage returns that the line behind the first `k` newlines gets at its end. -/
  returns : Nat → Nat
  /-- The inserted lines are blank. -/
  blank : ∀ k, ∀ text ∈ inserted k, Row.Blank text ∧ '\n' ∉ text

namespace Respacing

/-- The bytes that are inserted behind the first `k` newlines. -/
def insertedBytes (e : Respacing) (k : Nat) : List UInt8 :=
  (e.inserted k).flatMap fun text => Text.encode text ++ [newline]

/-- The line behind the first `k` newlines, with its carriage returns. -/
def lineBytes (e : Respacing) (k : Nat) (bytes : List UInt8) : List UInt8 :=
  bytes ++ List.replicate (e.returns k) Text.returnByte

/-- The data with the lines inserted and the carriage returns appended. Nothing is appended behind
the last newline unless there is an unfinished line. -/
def apply (e : Respacing) (bytes : List UInt8) : List UInt8 :=
  let source : Source := { bytes }
  (source.complete.mapIdx fun k line =>
      e.insertedBytes k ++ e.lineBytes k line ++ [newline]).flatten ++
    e.insertedBytes source.complete.length ++
    if source.rest = [] then [] else e.lineBytes source.complete.length source.rest

/-- The number that line `l` has afterwards: `l`, and the number of lines inserted before it. -/
def number (e : Respacing) (l : Nat) : Nat :=
  l + ((List.range l).map fun k => (e.inserted k).length).sum

/-- The lines that are inserted behind the first `k` newlines. -/
def insertedLines (e : Respacing) (k : Nat) : List Line :=
  (e.inserted k).map Except.ok

/-- Some lines with the inserted lines. -/
def respaced (e : Respacing) (lines : List Line) : List Line :=
  (lines.mapIdx fun k line => e.insertedLines k ++ [line]).flatten

variable (e : Respacing)

/-- No line is inserted in front of the start. -/
@[simp] theorem number_zero : e.number 0 = 0 :=
  rfl

/-- The next line is behind the lines that are inserted in front of it. -/
theorem number_succ (l : Nat) : e.number (l + 1) = e.number l + (e.inserted l).length + 1 := by
  simp only [number, List.range_succ, List.map_append, List.sum_append, List.map_singleton,
    List.sum_singleton]
  omega

/-- The number of a line depends only on what is inserted before it. -/
theorem number_congr {e' : Respacing} {n l : Nat} (h : ∀ k < n, e'.inserted k = e.inserted k)
    (hl : l ≤ n) : e'.number l = e.number l := by
  rw [number, number]
  congr 2
  refine List.map_congr_left fun k hk => ?_
  rw [h k (Nat.lt_of_lt_of_le (List.mem_range.mp hk) hl)]

/-- The last line has the lines inserted in front of it, and then comes itself. -/
theorem respaced_concat (lines : List Line) (line : Line) :
    e.respaced (lines ++ [line]) =
      e.respaced lines ++ (e.insertedLines lines.length ++ [line]) := by
  rw [respaced, List.mapIdx_concat, List.flatten_concat, respaced]

/-- All inserted lines are blank. -/
theorem blank_insertedLines (k : Nat) :
    ∀ line ∈ e.insertedLines k, ∃ text, line = .ok text ∧ Row.Blank text := by
  intro line hline
  obtain ⟨text, htext, rfl⟩ := List.mem_map.mp hline
  exact ⟨text, rfl, (e.blank k text htext).1⟩

/-! ### The lines of the data -/

/-- Carriage returns do not make a line into two. -/
theorem newline_not_mem_lineBytes {k : Nat} {bytes : List UInt8} (h : newline ∉ bytes) :
    newline ∉ e.lineBytes k bytes := by
  intro hmem
  rcases List.mem_append.mp hmem with hmem | hmem
  · exact h hmem
  · exact absurd (List.eq_of_mem_replicate hmem) (by decide)

/-- The inserted lines are lines of their own. -/
theorem bare_lines_insertedBytes_append (k : Nat) (after : List UInt8) :
    (Source.lines { bytes := e.insertedBytes k ++ after }).map Line.bare =
      (e.insertedLines k ++ Source.lines { bytes := after }).map Line.bare :=
  Source.bare_lines_flatMap_newline_append (fun text htext => (e.blank k text htext).2) after

/-- Complete lines become complete lines. -/
theorem bare_lines_complete_append {complete : List (List UInt8)}
    (h : ∀ line ∈ complete, newline ∉ line) (after : List UInt8) :
    (Source.lines { bytes := (complete.mapIdx fun k line =>
        e.insertedBytes k ++ e.lineBytes k line ++ [newline]).flatten ++ after }).map Line.bare =
      (e.respaced (complete.map Line.ofTerminated) ++ Source.lines { bytes := after }).map
        Line.bare := by
  -- Lines are taken off at the end, where the place of the others does not change.
  induction complete using List.reverseRecOn generalizing after with
  | nil => rfl
  | append_singleton complete line ih =>
    have hline : newline ∉ e.lineBytes complete.length line :=
      e.newline_not_mem_lineBytes (h line (by simp))
    have hbefore := ih fun other hother => h other (List.mem_append_left _ hother)
    -- The carriage returns that the line gets are none of its content.
    have hbare : (Line.ofTerminated (e.lineBytes complete.length line)).bare =
        (Line.ofTerminated line).bare := by
      simp [lineBytes]
    have hmap : (complete ++ [line]).map Line.ofTerminated =
        complete.map Line.ofTerminated ++ [Line.ofTerminated line] := List.map_append
    rw [List.mapIdx_concat, List.flatten_concat, List.append_assoc, hbefore, List.append_assoc,
      List.append_assoc, List.map_append, bare_lines_insertedBytes_append, List.singleton_append,
      Source.lines_append_newline_cons hline, hmap, respaced_concat, List.length_map]
    simp [hbare]

/-- The lines afterwards are the lines before, respaced, and blank lines behind the last newline, up
to carriage returns at their ends. -/
theorem exists_bare_lines_apply (bytes : List UInt8) :
    ∃ behind, (∀ line ∈ behind, ∃ text, line = .ok text ∧ Row.Blank text) ∧
      (Source.lines { bytes := e.apply bytes }).map Line.bare =
        (e.respaced (Source.lines { bytes }) ++ behind).map Line.bare := by
  have hcomplete : ∀ line ∈ Source.complete { bytes }, newline ∉ line :=
    fun line hline => Source.newline_not_mem_of_mem_complete hline
  have hrest : newline ∉ Source.rest { bytes } := Source.newline_not_mem_rest _
  rw [apply, List.append_assoc, bare_lines_complete_append e hcomplete, List.map_append,
    bare_lines_insertedBytes_append]
  by_cases hnil : Source.rest { bytes } = []
  · -- All lines are complete, and what is inserted at the end has no line behind it.
    refine ⟨_, e.blank_insertedLines (Source.complete { bytes }).length, ?_⟩
    have hlines : Source.lines { bytes } =
        (Source.complete { bytes }).map Line.ofTerminated := by
      show _ ++ (if _ then _ else _) = _
      rw [if_pos hnil, List.append_nil]
    have hempty : Source.lines { bytes := [] } = [] := rfl
    rw [hlines, if_pos hnil, hempty, List.append_nil, List.map_append]
  · -- The lines inserted at the end have the unfinished line behind them.
    refine ⟨[], by simp, ?_⟩
    have hlines : Source.lines { bytes } = (Source.complete { bytes }).map Line.ofTerminated ++
        [Line.ofBytes (Source.rest { bytes })] := by
      show _ ++ (if _ then _ else _) = _
      rw [if_neg hnil]
    have hne : e.lineBytes (Source.complete { bytes }).length (Source.rest { bytes }) ≠ [] := by
      simp [lineBytes, hnil]
    rw [hlines, if_neg hnil, Source.lines_unfinished (e.newline_not_mem_lineBytes hrest) hne,
      respaced_concat, List.length_map]
    simp [lineBytes]

/-! ### Reading -/

/-- A line and the lines inserted in front of it are read like the line alone, under the numbers
that the lines have afterwards. -/
theorem readLines_inserted_append (r : Reader) (line : Line) :
    (r.renumber e.number).readLines (e.insertedLines r.line ++ [line]) =
      Reader.renumberOutcome e.number (r.readLine line) := by
  have hcount : (e.insertedLines r.line).length = (e.inserted r.line).length := List.length_map _
  have hblank := Reader.readLines_blank (r := r.renumber e.number) (e.blank_insertedLines r.line)
  rw [Reader.readLines_append, hblank, hcount]
  show Reader.readLines _ [_] = _
  rw [Reader.readLines_singleton]
  -- The inserted lines have been counted, so the next line has the number that it should have.
  refine Reader.readLine_of_nextLine_eq ?_ line
  show (⟨e.number r.line + (e.inserted r.line).length + 1, _, _, _⟩ : Reader) = _
  rw [← number_succ]
  rfl

/-- A new reader reads respaced lines like the lines themselves, under the numbers that they have
afterwards. -/
theorem readLines_respaced (lines : List Line) :
    Reader.empty.readLines (e.respaced lines) =
      Reader.renumberOutcome e.number (Reader.empty.readLines lines) := by
  induction lines using List.reverseRecOn with
  | nil =>
    show (Reader.empty, none) = (Reader.empty.renumber e.number, none)
    rw [Reader.renumber_empty e.number e.number_zero]
  | append_singleton lines line ih =>
    rw [respaced_concat, Reader.readLines_append, Reader.readLines_append, ih]
    rcases hread : Reader.empty.readLines lines with ⟨r, _ | fault⟩
    · -- The reader stands behind these lines, so the step is that of the place `lines.length`.
      have hline : r.line = lines.length :=
        (Reader.line_of_readLines hread).trans (Nat.zero_add _)
      show (r.renumber e.number).readLines _ =
        Reader.renumberOutcome e.number (r.readLines [line])
      rw [← hline, readLines_inserted_append, Reader.readLines_singleton]
    · -- The lines before have stopped the reader, and nothing behind them is read.
      rfl

/-- Data with a fault has the same one afterwards and leaves the same reader, with other numbers. -/
theorem read_apply_of_fault {bytes : List UInt8} {left : Reader} {fault : SourceFault}
    (h : Reader.empty.read { bytes } = (left, some fault)) :
    Reader.empty.read { bytes := e.apply bytes } =
      Reader.renumberOutcome e.number (left, some fault) := by
  obtain ⟨behind, -, hlines⟩ := e.exists_bare_lines_apply bytes
  have hread : Reader.empty.readLines (e.respaced (Source.lines { bytes })) = _ :=
    (e.readLines_respaced _).trans (congrArg _ h)
  rw [Reader.read, Reader.readLines_congr_bare _ hlines, Reader.readLines_append, hread]
  rfl

/-- Data that is read to its end is so afterwards, with the same steps under other numbers. The
lines that are inserted behind its last newline are read as well, and hold no steps. -/
theorem exists_read_apply_of_none {bytes : List UInt8} {r : Reader}
    (h : Reader.empty.read { bytes } = (r, none)) :
    ∃ r', Reader.empty.read { bytes := e.apply bytes } = (r', none) ∧
      r'.program = r.program.map (Step.renumber e.number) := by
  obtain ⟨behind, hblank, hlines⟩ := e.exists_bare_lines_apply bytes
  have hread : Reader.empty.readLines (e.respaced (Source.lines { bytes })) = _ :=
    (e.readLines_respaced _).trans (congrArg _ h)
  rw [Reader.read, Reader.readLines_congr_bare _ hlines, Reader.readLines_append, hread]
  exact ⟨_, Reader.readLines_blank hblank, Reader.program_renumber e.number r⟩

/-- What a respacing does to some data: it gives other numbers to its lines, and nothing else. -/
structure OnlyRenumbers (e : Respacing) (bytes : List UInt8) : Prop where
  /-- The data is read to its end exactly when it was before. -/
  accepted_iff : (Reader.empty.read { bytes := e.apply bytes }).2 = none ↔
    (Reader.empty.read { bytes }).2 = none
  /-- The steps are then the same, except for their lines. -/
  program_eq : (Reader.empty.read { bytes }).2 = none →
    (Reader.empty.read { bytes := e.apply bytes }).1.program =
      (Reader.empty.read { bytes }).1.program.map (Step.renumber e.number)
  /-- And the listing is the same to the byte, or it is missing for the same fault. -/
  listing_eq : (Reader.empty.read { bytes }).2 = none →
    (Compilation.ofSource { bytes := e.apply bytes }).result.map RomSet.listing =
      (Compilation.ofSource { bytes }).result.map RomSet.listing
  /-- A fault stays the same, except for the lines that it names. -/
  fault_eq : ∀ fault, (Reader.empty.read { bytes }).2 = some fault →
    (Reader.empty.read { bytes := e.apply bytes }).2 = some (fault.renumber e.number)
  /-- What is inserted behind the line of the fault makes no difference at all. -/
  behind : ∀ fault, (Reader.empty.read { bytes }).2 = some fault →
    ∀ e' : Respacing, (∀ k < fault.line, e'.inserted k = e.inserted k) →
    Reader.empty.read { bytes := e'.apply bytes } = Reader.empty.read { bytes := e.apply bytes }

/-- The tables of data that is read to its end do not depend on its spacing. -/
theorem result_ofSource_apply {bytes : List UInt8} {r : Reader}
    (h : Reader.empty.read { bytes } = (r, none)) :
    (Compilation.ofSource { bytes := e.apply bytes }).result =
      (Compilation.ofSource { bytes }).result := by
  obtain ⟨r', hread, hprogram⟩ := e.exists_read_apply_of_none h
  rw [Compilation.ofSource, Compilation.ofSource, h, hread]
  show r'.program.build.mapError Fault.program = r.program.build.mapError Fault.program
  rw [hprogram, Program.build_map_renumber]

/-- Data that is read to its end gets other line numbers and nothing else. -/
theorem onlyRenumbers_of_none {bytes : List UInt8} {r : Reader}
    (h : Reader.empty.read { bytes } = (r, none)) : e.OnlyRenumbers bytes where
  accepted_iff := by
    obtain ⟨r', hread, -⟩ := e.exists_read_apply_of_none h
    simp [h, hread]
  program_eq _ := by
    obtain ⟨r', hread, hprogram⟩ := e.exists_read_apply_of_none h
    rw [h, hread, hprogram]
  listing_eq _ := congrArg _ (e.result_ofSource_apply h)
  fault_eq fault hfault := by simp [h] at hfault
  behind fault hfault := by simp [h] at hfault

/-- Data with a fault gets other line numbers and nothing else. -/
theorem onlyRenumbers_of_fault {bytes : List UInt8} {left : Reader} {fault : SourceFault}
    (h : Reader.empty.read { bytes } = (left, some fault)) : e.OnlyRenumbers bytes where
  accepted_iff := by simp [h, e.read_apply_of_fault h, Reader.renumberOutcome]
  program_eq hnone := by simp [h] at hnone
  listing_eq hnone := by simp [h] at hnone
  fault_eq fault' hfault := by
    rw [h] at hfault
    rw [e.read_apply_of_fault h, ← Option.some.inj hfault]
    rfl
  behind fault' hfault e' hsame := by
    rw [h] at hfault
    obtain rfl := Option.some.inj hfault
    rw [e.read_apply_of_fault h, e'.read_apply_of_fault h]
    -- The two give the same numbers up to the line of the fault, and no others are looked at.
    exact Reader.renumberOutcome_congr h fun l hl => e.number_congr hsame hl

/-- Blank lines, inserted at the start or behind any newlines, and carriage returns, appended to any
lines, only give other numbers to the lines of some data. It is accepted as before, with the same
steps and the same listing, or has the same fault. -/
theorem apply_only_renumbers (e : Respacing) (bytes : List UInt8) : e.OnlyRenumbers bytes := by
  rcases h : Reader.empty.read { bytes } with ⟨r, _ | fault⟩
  · exact e.onlyRenumbers_of_none h
  · exact e.onlyRenumbers_of_fault h

/-- A line with a space is inserted at the start, two empty lines are inserted behind the first
newline, and each line gets a carriage return. -/
def spacedOut : Respacing where
  inserted
    | 0 => [[' ']]
    | 1 => [[], []]
    | _ => []
  returns _ := 1
  blank := by
    intro k text htext
    match k, htext with
    | 0, htext =>
      obtain rfl := List.mem_singleton.mp htext
      exact ⟨by simp [Row.Blank, Text.isBlank, Text.inRanges, Text.blankRanges], by decide⟩
    | 1, htext =>
      obtain rfl : text = [] := by simpa using htext
      exact ⟨by simp [Row.Blank], by decide⟩

/-- The lines `5⇥A⇥1` and `5⇥B⇥2`, the second without a newline. -/
def fiveTwice : List UInt8 :=
  [53, 9, 65, 9, 49, 10, 53, 9, 66, 9, 50]

/-- The second line repeats the opcode of the first. Afterwards these are the lines 5 and 2. -/
theorem spacedOut_renumbers :
    spacedOut.apply fiveTwice =
      [32, 10, 53, 9, 65, 9, 49, 13, 10, 10, 10, 53, 9, 66, 9, 50, 13] ∧
    (Reader.empty.read { bytes := fiveTwice }).2 = some (.duplicateOpcode 2 5 1) ∧
    (Reader.empty.read { bytes := spacedOut.apply fiveTwice }).2 =
      some (.duplicateOpcode 5 5 2) := by
  have hfault : (Reader.empty.read { bytes := fiveTwice }).2 = some (.duplicateOpcode 2 5 1) := by
    decide +kernel
  exact ⟨by decide, hfault, (apply_only_renumbers spacedOut fiveTwice).fault_eq _ hfault⟩

end Respacing

end ControlStore
