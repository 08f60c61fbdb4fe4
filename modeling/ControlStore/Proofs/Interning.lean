import ControlStore.AddressBook
import Mathlib.Data.List.Nodup

/-!
# `ControlStore.Proofs.Interning`: addresses lead back to their pairs

An address book stays numbered: record and list agree on the pairs, and a pair has the address of
its place in the list (`Numbered`). Taking a pair never moves or removes another, and the address it
gets is that of a place where it is listed (`Locates`). `intern_spec` says this for one pair, and
`internAll_spec` for any number of pairs taken one after another, with respect to the book that
lists them all.

No pair is listed twice (`nodup_pairs_internAll`), and a new book that has taken some pairs lists
them in the order of their first use (`pairs_internAll_empty`). So the address of a pair is that of
its place in the list (`getElem?_internAll_empty`).

An address is a byte, and twice a place goes past a byte at place 128. `internAll_empty_records`
says what a book holds after any number of pairs, and that two pairs share an address from the 129th
different pair on, and not before.
-/

set_option autoImplicit false

namespace ControlStore.AddressBook

/-- The record gives each listed pair the address of its place, and no address to other pairs. -/
def Numbered (book : AddressBook) : Prop :=
  ∀ pair, book.address? pair =
    if pair ∈ book.pairs then some (entryAddress (book.pairs.idxOf pair)) else none

/-- The address is that of a place where the book lists the given pair. -/
def Locates (book : AddressBook) (pair : ControlPair) (address : UInt8) : Prop :=
  ∃ i, book.pairs[i]? = some pair ∧ address = entryAddress i

/-- An empty book gives away no address. -/
theorem numbered_empty : Numbered empty :=
  fun _ => rfl

/-- A book that lists more pairs still locates those it located before. -/
theorem Locates.mono {book book' : AddressBook} (h : book.pairs <+: book'.pairs)
    {pair : ControlPair} {address : UInt8} (hpair : book.Locates pair address) :
    book'.Locates pair address := by
  obtain ⟨i, hi, rfl⟩ := hpair
  obtain ⟨more, hmore⟩ := h
  refine ⟨i, ?_, rfl⟩
  rw [← hmore, List.getElem?_append_left (List.getElem?_eq_some_iff.mp hi).1]
  exact hi

namespace Numbered

variable {book : AddressBook} {pair : ControlPair}

/-- A listed pair has the address of the place at which it is listed first. -/
theorem address?_of_mem (h : Numbered book) (hmem : pair ∈ book.pairs) :
    book.address? pair = some (entryAddress (book.pairs.idxOf pair)) := by
  rw [h pair, if_pos hmem]

/-- The pairs without an address are those that are not listed. -/
theorem address?_eq_none_iff (h : Numbered book) :
    book.address? pair = none ↔ pair ∉ book.pairs := by
  rw [h pair]
  simp

/-- Only listed pairs have addresses. -/
theorem mem_of_address? (h : Numbered book) {address : UInt8}
    (hfound : book.address? pair = some address) : pair ∈ book.pairs := by
  by_contra hnot
  rw [h.address?_eq_none_iff.mpr hnot] at hfound
  cases hfound

/-- The address that a book gives for a pair leads to this pair. -/
theorem locates (h : Numbered book) {address : UInt8} (hfound : book.address? pair = some address) :
    book.Locates pair address := by
  have hmem := h.mem_of_address? hfound
  have hlt := List.idxOf_lt_length_iff.mpr hmem
  rw [h.address?_of_mem hmem] at hfound
  refine ⟨book.pairs.idxOf pair, ?_, (Option.some.inj hfound).symm⟩
  rw [List.getElem?_eq_getElem hlt, List.getElem_idxOf]

/-- A pair without an address goes to the end of the list, and the record gets this place. -/
theorem concat (h : Numbered book) (hnew : pair ∉ book.pairs) :
    Numbered ⟨(pair, entryAddress book.pairs.length) :: book.entries, book.pairs ++ [pair]⟩ := by
  intro other
  show ((pair, entryAddress book.pairs.length) :: book.entries).lookup other = _
  rw [List.lookup_cons]
  by_cases hother : other = pair
  · simp [hother, hnew, List.idxOf_append]
  · -- The places of the other pairs do not change, and neither do their addresses.
    have hkept : book.entries.lookup other = _ := h other
    have hbeq : (other == pair) = false := beq_eq_false_iff_ne.mpr hother
    by_cases hmem : other ∈ book.pairs
    · simp [hbeq, hmem, hkept, List.idxOf_append]
    · simp [hbeq, hother, hmem, hkept]

end Numbered

/-- Taking one pair keeps the book numbered and its list in place, adds at most one pair to it, and
gives an address of the pair. -/
theorem intern_spec {book : AddressBook} (h : Numbered book) (pair : ControlPair) :
    Numbered (book.intern pair).2 ∧ book.pairs <+: (book.intern pair).2.pairs ∧
      (book.intern pair).2.pairs.length ≤ book.pairs.length + 1 ∧
      (book.intern pair).2.Locates pair (book.intern pair).1 := by
  unfold intern
  cases hfound : book.address? pair with
  | some address => exact ⟨h, List.prefix_rfl, Nat.le_succ _, h.locates hfound⟩
  | none =>
    refine ⟨h.concat (h.address?_eq_none_iff.mp hfound), List.prefix_append _ _, ?_, ?_⟩
    · simp
    · exact ⟨book.pairs.length, by simp, rfl⟩

/-- There is one address for each pair that is given to the book. -/
@[simp] theorem length_internAll (book : AddressBook) (pairs : List ControlPair) :
    (book.internAll pairs).1.length = pairs.length := by
  induction pairs generalizing book with
  | nil => rfl
  | cons pair later ih => simp only [internAll, List.length_cons, ih]

/-- Pairs taken behind others are given to the book that those leave. -/
theorem internAll_append (book : AddressBook) (pairs more : List ControlPair) :
    book.internAll (pairs ++ more) =
      ((book.internAll pairs).1 ++ ((book.internAll pairs).2.internAll more).1,
        ((book.internAll pairs).2.internAll more).2) := by
  induction pairs generalizing book with
  | nil => rfl
  | cons pair pairs ih =>
    show ((book.intern pair).1 :: ((book.intern pair).2.internAll (pairs ++ more)).1,
      ((book.intern pair).2.internAll (pairs ++ more)).2) = _
    rw [ih]
    rfl

/-- Taking pairs one after another keeps the book numbered and its list in place, adds each of them
at most once, and gives each pair an address that locates it in the last book. -/
theorem internAll_spec {book : AddressBook} (h : Numbered book) (pairs : List ControlPair) :
    Numbered (book.internAll pairs).2 ∧ book.pairs <+: (book.internAll pairs).2.pairs ∧
      (book.internAll pairs).2.pairs.length ≤ book.pairs.length + pairs.length ∧
      ∀ (j : Nat) (pair : ControlPair), pairs[j]? = some pair →
        ∃ address, (book.internAll pairs).1[j]? = some address ∧
          (book.internAll pairs).2.Locates pair address := by
  induction pairs generalizing book with
  | nil => exact ⟨h, List.prefix_rfl, Nat.le_refl _, fun j pair hj => by cases hj⟩
  | cons pair later ih =>
    obtain ⟨hnum, hprefix, hlen, hloc⟩ := intern_spec h pair
    obtain ⟨hnum', hprefix', hlen', hlater⟩ := ih hnum
    rw [internAll]
    refine ⟨hnum', hprefix.trans hprefix', ?_, fun j p hj => ?_⟩
    · simp only [List.length_cons]
      omega
    · cases j with
      | zero =>
        -- The address comes from an earlier book, whose pairs are still in place.
        cases hj
        exact ⟨_, rfl, hloc.mono hprefix'⟩
      | succ j => exact hlater j p hj

/-! ### Which pairs are listed, and where -/

section
variable {book : AddressBook}

/-- A listed pair leaves the list as it is. Any other pair is put at its end. -/
theorem pairs_intern (h : Numbered book) (pair : ControlPair) :
    (book.intern pair).2.pairs =
      if pair ∈ book.pairs then book.pairs else book.pairs ++ [pair] := by
  unfold intern
  cases hfound : book.address? pair with
  | some address => rw [if_pos (h.mem_of_address? hfound)]
  | none => rw [if_neg (h.address?_eq_none_iff.mp hfound)]

/-- A pair that is already listed is not listed again. -/
theorem nodup_pairs_intern (h : Numbered book) (hnodup : book.pairs.Nodup) (pair : ControlPair) :
    (book.intern pair).2.pairs.Nodup := by
  rw [pairs_intern h]
  split
  · exact hnodup
  · next hnot =>
    rw [← List.concat_eq_append]
    exact hnodup.concat hnot

/-- No pair is listed twice, however often it is taken. -/
theorem nodup_pairs_internAll (h : Numbered book) (hnodup : book.pairs.Nodup)
    (pairs : List ControlPair) : (book.internAll pairs).2.pairs.Nodup := by
  induction pairs generalizing book with
  | nil => exact hnodup
  | cons pair later ih => exact ih (intern_spec h pair).1 (nodup_pairs_intern h hnodup pair)

/-- Taking pairs adds those that were not listed, each of them at its first use. -/
theorem pairs_internAll (h : Numbered book) (pairs : List ControlPair) :
    (book.internAll pairs).2.pairs = book.pairs ++ (pairs.removeAll book.pairs).eraseDups := by
  induction pairs generalizing book with
  | nil => simp [internAll, List.removeAll]
  | cons pair later ih =>
    show ((book.intern pair).2.internAll later).2.pairs = _
    rw [ih (intern_spec h pair).1, pairs_intern h, List.cons_removeAll]
    by_cases hmem : pair ∈ book.pairs
    · have hlisted : book.pairs.contains pair = true := List.contains_iff_mem.mpr hmem
      rw [if_pos hmem, hlisted]
      rfl
    · -- The pair is new, and no later use of it counts any more.
      have hlater : (later.removeAll book.pairs).filter (fun other => !other == pair) =
          later.removeAll (book.pairs ++ [pair]) := by
        rw [List.removeAll, List.removeAll, List.filter_filter]
        refine List.filter_congr fun other _ => ?_
        by_cases heq : other = pair <;> simp [heq]
      have hunlisted : book.pairs.contains pair = false := by simpa using hmem
      rw [if_neg hmem, if_pos hunlisted, List.eraseDups_cons, hlater, List.append_assoc]
      rfl

end

/-- A new book lists the different pairs that it has taken in the order of their first use. -/
theorem pairs_internAll_empty (pairs : List ControlPair) :
    (empty.internAll pairs).2.pairs = pairs.eraseDups := by
  have hnil : empty.pairs = [] := rfl
  rw [pairs_internAll numbered_empty, hnil, List.removeAll_nil, List.nil_append]

/-- Where no pair is listed twice, an address that locates a pair is that of its place. -/
theorem Locates.eq_entryAddress {book : AddressBook} (h : book.pairs.Nodup) {pair : ControlPair}
    {address : UInt8} (hpair : book.Locates pair address) :
    address = entryAddress (book.pairs.idxOf pair) := by
  obtain ⟨i, hi, rfl⟩ := hpair
  obtain ⟨hlt, rfl⟩ := List.getElem?_eq_some_iff.mp hi
  rw [h.idxOf_getElem i hlt]

/-- Each pair gets the address of its place among the different pairs. -/
theorem getElem?_internAll_empty {pairs : List ControlPair} {j : Nat} {pair : ControlPair}
    (hj : pairs[j]? = some pair) :
    (empty.internAll pairs).1[j]? = some (entryAddress (pairs.eraseDups.idxOf pair)) := by
  obtain ⟨-, -, -, hlocated⟩ := internAll_spec numbered_empty pairs
  obtain ⟨address, haddress, hpair⟩ := hlocated j pair hj
  have hnodup := nodup_pairs_internAll numbered_empty List.nodup_nil pairs
  rw [haddress, hpair.eq_entryAddress hnodup, pairs_internAll_empty]

/-! ### Addresses that wrap around -/

/-- What taking pairs one after another leaves: the book, and the address that each of them got. -/
structure Records (book : AddressBook) (pairs : List ControlPair) (addresses : List UInt8) :
    Prop where
  /-- The different pairs are listed in the order of their first use. -/
  listed : book.pairs = pairs.eraseDups
  /-- No pair is listed twice. -/
  nodup : book.pairs.Nodup
  /-- The pairs with an address are the listed ones. -/
  keys : ∀ pair, (book.address? pair).isSome = true ↔ pair ∈ book.pairs
  /-- The address of a pair is twice its place, as far as a byte goes. -/
  wrapped : ∀ (i : Nat) (pair : ControlPair), book.pairs[i]? = some pair →
    (book.address? pair).map (·.toNat) = some (2 * i % 256)
  /-- Each pair taken got an address. -/
  length_addresses : addresses.length = pairs.length
  /-- It is the one that the book has in the end. -/
  returned : ∀ (j : Nat) (pair : ControlPair), pairs[j]? = some pair →
    addresses[j]? = book.address? pair
  /-- The same pair got the same address each time. -/
  shared : ∀ (i j : Nat) (pair : ControlPair), pairs[i]? = some pair → pairs[j]? = some pair →
    addresses[i]? = addresses[j]?
  /-- Different pairs got different addresses exactly when there are at most 128 of them. -/
  distinct_iff : (∀ (i j : Nat) (pair pair' : ControlPair), pairs[i]? = some pair →
    pairs[j]? = some pair' → pair ≠ pair' → addresses[i]? ≠ addresses[j]?) ↔
      book.pairs.length ≤ 128
  /-- Of at most 128 pairs, no address is cut off. -/
  unwrapped : book.pairs.length ≤ 128 → ∀ (i : Nat) (pair : ControlPair),
    book.pairs[i]? = some pair → (book.address? pair).map (·.toNat) = some (2 * i)

/-- The address of a place is twice its number, wrapped around at 256. -/
theorem toNat_entryAddress_mod (i : Nat) : (entryAddress i).toNat = 2 * i % 256 :=
  UInt8.toNat_ofNat'

/-- Two places have the same address when they are a multiple of 128 apart. -/
theorem entryAddress_eq_iff {i j : Nat} : entryAddress i = entryAddress j ↔ i % 128 = j % 128 := by
  rw [← UInt8.toNat_inj, toNat_entryAddress_mod, toNat_entryAddress_mod]
  omega

/-- A pair has an address exactly when it is listed. -/
theorem Numbered.isSome_address?_iff {book : AddressBook} (h : Numbered book) {pair : ControlPair} :
    (book.address? pair).isSome = true ↔ pair ∈ book.pairs := by
  rw [Option.isSome_iff_ne_none, ne_eq, h.address?_eq_none_iff, not_not]

/-- In a numbered book without repetitions, a pair has the address of the place where it stands. -/
theorem Numbered.address?_eq {book : AddressBook} (h : Numbered book) (hnodup : book.pairs.Nodup)
    {i : Nat} {pair : ControlPair} (hi : book.pairs[i]? = some pair) :
    book.address? pair = some (entryAddress i) := by
  rw [h.address?_of_mem (List.mem_of_getElem? hi)]
  obtain ⟨hlt, rfl⟩ := List.getElem?_eq_some_iff.mp hi
  rw [hnodup.idxOf_getElem i hlt]

/-- Up to 128 different pairs, the addresses tell them apart. -/
theorem internAll_empty_ne {pairs : List ControlPair} (hlen : pairs.eraseDups.length ≤ 128)
    {i j : Nat} {pair pair' : ControlPair} (hi : pairs[i]? = some pair)
    (hj : pairs[j]? = some pair') (hne : pair ≠ pair') :
    (empty.internAll pairs).1[i]? ≠ (empty.internAll pairs).1[j]? := by
  have hmem : pair ∈ pairs.eraseDups := List.mem_eraseDups.mpr (List.mem_of_getElem? hi)
  have hmem' : pair' ∈ pairs.eraseDups := List.mem_eraseDups.mpr (List.mem_of_getElem? hj)
  have hlt := Nat.lt_of_lt_of_le (List.idxOf_lt_length_iff.mpr hmem) hlen
  have hlt' := Nat.lt_of_lt_of_le (List.idxOf_lt_length_iff.mpr hmem') hlen
  rw [getElem?_internAll_empty hi, getElem?_internAll_empty hj, ne_eq, Option.some.injEq,
    entryAddress_eq_iff, Nat.mod_eq_of_lt hlt, Nat.mod_eq_of_lt hlt', List.idxOf_inj hmem]
  exact hne

/-- The 129th different pair gets the address of the first one. -/
theorem exists_internAll_empty_eq {pairs : List ControlPair} (hlen : 128 < pairs.eraseDups.length) :
    ∃ (i j : Nat) (pair pair' : ControlPair), pairs[i]? = some pair ∧ pairs[j]? = some pair' ∧
      pair ≠ pair' ∧ (empty.internAll pairs).1[i]? = (empty.internAll pairs).1[j]? := by
  have hnodup := nodup_pairs_internAll numbered_empty List.nodup_nil pairs
  rw [pairs_internAll_empty] at hnodup
  -- Every listed pair was taken at some time, and its place in the list is its index.
  have hused : ∀ (k : Nat) (hk : k < pairs.eraseDups.length), ∃ i : Nat,
      pairs[i]? = some pairs.eraseDups[k] ∧
        (empty.internAll pairs).1[i]? = some (entryAddress k) := by
    intro k hk
    obtain ⟨i, hi⟩ := List.mem_iff_getElem?.mp (List.mem_eraseDups.mp (List.getElem_mem hk))
    refine ⟨i, hi, ?_⟩
    rw [getElem?_internAll_empty hi, hnodup.idxOf_getElem k hk]
  obtain ⟨i, hi, hfirst⟩ := hused 0 (by omega)
  obtain ⟨j, hj, hlast⟩ := hused 128 hlen
  refine ⟨i, j, _, _, hi, hj, fun heq => ?_, ?_⟩
  · have hplaces := hnodup.getElem_inj_iff.mp heq
    omega
  · rw [hfirst, hlast]
    exact congrArg some (entryAddress_eq_iff.mpr rfl)

/-- What a new book and the addresses that it gives away come to, for any pairs in any number. -/
theorem internAll_empty_records (pairs : List ControlPair) :
    (empty.internAll pairs).2.Records pairs (empty.internAll pairs).1 := by
  have hlisted := pairs_internAll_empty pairs
  have hnodup := nodup_pairs_internAll numbered_empty List.nodup_nil pairs
  obtain ⟨hnumbered, -, -, -⟩ := internAll_spec numbered_empty pairs
  have haddress : ∀ (i : Nat) (pair : ControlPair),
      (empty.internAll pairs).2.pairs[i]? = some pair →
      (empty.internAll pairs).2.address? pair = some (entryAddress i) :=
    fun i pair hi => hnumbered.address?_eq hnodup hi
  have hreturned : ∀ (j : Nat) (pair : ControlPair), pairs[j]? = some pair →
      (empty.internAll pairs).1[j]? = (empty.internAll pairs).2.address? pair := by
    intro j pair hj
    have hmem : pair ∈ pairs.eraseDups := List.mem_eraseDups.mpr (List.mem_of_getElem? hj)
    rw [getElem?_internAll_empty hj, hnumbered.address?_of_mem (hlisted ▸ hmem), hlisted]
  refine ⟨hlisted, hnodup, fun _ => hnumbered.isSome_address?_iff, ?_,
    length_internAll empty pairs, hreturned, ?_, ?_, ?_⟩
  · intro i pair hi
    rw [haddress i pair hi, Option.map_some, toNat_entryAddress_mod]
  · intro i j pair hi hj
    rw [hreturned i pair hi, hreturned j pair hj]
  · rw [hlisted]
    constructor
    · intro hdistinct
      by_contra hlen
      obtain ⟨i, j, pair, pair', hi, hj, hne, heq⟩ :=
        exists_internAll_empty_eq (Nat.lt_of_not_le hlen)
      exact hdistinct i j pair pair' hi hj hne heq
    · intro hlen i j pair pair' hi hj hne
      exact internAll_empty_ne hlen hi hj hne
  · intro hlen i pair hi
    have hlt : i < 128 := Nat.lt_of_lt_of_le (List.getElem?_eq_some_iff.mp hi).1 hlen
    rw [haddress i pair hi, Option.map_some, toNat_entryAddress_mod, Nat.mod_eq_of_lt (by omega)]

end ControlStore.AddressBook
