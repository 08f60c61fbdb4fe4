import ControlStore.Step

/-!
# `ControlStore.AddressBook`: addresses of control pairs

Each distinct pair of control bytes is stored once, at the next free entry when it is first met.
Later uses of the pair share that entry. The book lists the pairs in the order in which they were
first met, and it keeps a record of the addresses given to them, in which a pair is looked up.
-/

set_option autoImplicit false

namespace ControlStore

/-- The control pairs met so far. -/
structure AddressBook where
  /-- The record of addresses, the latest first. -/
  entries : List (ControlPair × UInt8)
  /-- The pairs in the order of first use. This is the control table. -/
  pairs : List ControlPair
  deriving DecidableEq, Repr

namespace AddressBook

/-- The book without an entry. -/
def empty : AddressBook := ⟨[], []⟩

/-- The address of a pair, if there is one in the record. -/
def address? (book : AddressBook) (pair : ControlPair) : Option UInt8 :=
  book.entries.lookup pair

/-- The address of a pair, with the book that lists it. A new pair takes the next free entry. -/
def intern (book : AddressBook) (pair : ControlPair) : UInt8 × AddressBook :=
  match book.address? pair with
  | some address => (address, book)
  | none =>
    let address := entryAddress book.pairs.length
    (address, ⟨(pair, address) :: book.entries, book.pairs ++ [pair]⟩)

/-- The addresses of pairs taken one after another, with the book that lists them all. -/
def internAll (book : AddressBook) : List ControlPair → List UInt8 × AddressBook
  | [] => ([], book)
  | pair :: later =>
    let (address, book) := book.intern pair
    let (addresses, book) := book.internAll later
    (address :: addresses, book)

end AddressBook

end ControlStore
