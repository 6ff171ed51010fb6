import CallGate.Account
import CallGate.Proofs.Storage.Slots

/-!
# Account books by their history

A book answers from the last insertion for an address, and knows no account that was not inserted.
The hash kept with an account is that of its code, also where it was not computed: the constant for
empty code is the hash of no bytes.

* `emptyCodeHash_eq`: the constant is the hash.
* `AccountBook.find?_ofInserts`: a book holds the last account inserted for each address.
* `AccountBook.reflects_ofInserts`: the answers of a book after any insertions.
-/

namespace CallGate

namespace OrderedMap

/-- What is made of the values is made of the last value. -/
theorem lastValue?_map {κ ν ν' : Type} [DecidableEq κ] (key : κ) (entries : List (κ × ν))
    (f : ν → ν') :
    lastValue? key (entries.map fun entry => (entry.1, f entry.2)) =
      (lastValue? key entries).map f := by
  rw [lastValue?, lastValue?, List.filterMap_map, ← List.getLast?_map, List.map_filterMap]
  congr 2
  funext entry
  by_cases hkey : entry.1 = key <;> simp [hkey]

/-- The last value of a key is the one that no other entry of the key follows. -/
theorem lastValue?_append_cons {κ ν : Type} [DecidableEq κ] {key : κ} {before after : List (κ × ν)}
    (hafter : key ∉ after.map Prod.fst) (value : ν) :
    lastValue? key (before ++ (key, value) :: after) = some value := by
  have hnone : lastValue? key after = none := by
    rw [← Option.not_isSome_iff_eq_none, isSome_lastValue?_iff]
    exact hafter
  rw [lastValue?_append, ← List.singleton_append, lastValue?_append, hnone]
  simp [lastValue?]

end OrderedMap

/-- The constant for empty code is the hash of no bytes. -/
theorem emptyCodeHash_eq : emptyCodeHash = Keccak.hash [] := by
  decide +kernel

-- The published hash of the three bytes `abc`, which share their block with the padding.
example : (Keccak.hash [0x61, 0x62, 0x63]).toNat =
    0x4e03657aea45a94fc7d47ba826c8d667c0d1e6e33a64a036ec44f58fa12d6c45 := by
  decide +kernel

-- Input that fills its block is followed by a block of padding.
example : (Keccak.hash (List.replicate 136 0x61)).toNat =
    0xa6c4d403279fe3e0af03729caada8374b5ca54d8065329a3ebcaeb4b60aa386e := by
  decide +kernel

/-- The hash kept with an account is that of its code, whether computed or known beforehand. -/
theorem Account.codeHash_ofCode (balance : Word) (code : Bytes) :
    (ofCode balance code).codeHash = Keccak.hash code := by
  cases code with
  | nil => exact emptyCodeHash_eq
  | cons b rest => rfl

namespace AccountBook

/-- The book after accounts were inserted one after another, each with a balance and a code. -/
def ofInserts (inserts : List (Address × Word × Bytes)) : AccountBook :=
  inserts.foldl (fun book (address, balance, code) => put book address balance code) .empty

/-- A book is the map of its accounts, of which the last for an address counts. -/
theorem ofInserts_eq (inserts : List (Address × Word × Bytes)) :
    ofInserts inserts =
      .ofList (inserts.map fun entry => (entry.1, Account.ofCode entry.2.1 entry.2.2)) := by
  rw [OrderedMap.ofList, OrderedMap.insertAll, List.foldl_map]
  rfl

/-- A book holds the last account inserted for each address. -/
theorem find?_ofInserts (inserts : List (Address × Word × Bytes)) (address : Address) :
    (ofInserts inserts).find? address =
      (OrderedMap.lastValue? address inserts).map fun value => Account.ofCode value.1 value.2 := by
  rw [ofInserts_eq, OrderedMap.find?_ofList]
  exact OrderedMap.lastValue?_map address inserts fun value => Account.ofCode value.1 value.2

/-- A book knows the addresses that were inserted. -/
theorem contains_ofInserts (inserts : List (Address × Word × Bytes)) (address : Address) :
    (ofInserts inserts).contains address = true ↔ address ∈ inserts.map Prod.fst := by
  rw [OrderedMap.contains, find?_ofInserts, Option.isSome_map, OrderedMap.isSome_lastValue?_iff]

/-- A book has as many accounts as there are addresses inserted. -/
theorem size_ofInserts (inserts : List (Address × Word × Bytes)) :
    (ofInserts inserts).size = (inserts.map Prod.fst).dedup.length := by
  rw [ofInserts_eq, OrderedMap.size_ofList, List.map_map]
  rfl

/-- A source answers as insertions call for. -/
structure Reflects (source : AccountSource) (inserts : List (Address × Word × Bytes)) : Prop where
  /-- There is an account where one was inserted. -/
  isPresent : ∀ address, source.isPresent address = true ↔ address ∈ inserts.map Prod.fst
  /-- The last insertion for an address gives the balance, the code, its size and its hash. -/
  known : ∀ before address balance code after,
    inserts = before ++ (address, balance, code) :: after → address ∉ after.map Prod.fst →
    source.balance address = balance ∧ source.code address = code ∧
      source.codeSize address = code.length ∧ source.codeHash address = Keccak.hash code
  /-- Where no account was inserted, the balance and the hash are zero and there is no code. -/
  missing : ∀ address, address ∉ inserts.map Prod.fst →
    source.balance address = .zero ∧ source.code address = [] ∧
      source.codeSize address = 0 ∧ source.codeHash address = .zero

/-- A book answers by its insertions, whatever their number and order. -/
theorem reflects_ofInserts (inserts : List (Address × Word × Bytes)) :
    Reflects (source (ofInserts inserts)) inserts where
  isPresent := contains_ofInserts inserts
  known before address balance code after hinserts hafter := by
    have hfind : (ofInserts inserts).find? address = some (Account.ofCode balance code) := by
      rw [find?_ofInserts, hinserts, OrderedMap.lastValue?_append_cons hafter, Option.map_some]
    simp only [AccountSource.codeSize, source, hfind, Option.elim_some]
    exact ⟨rfl, rfl, rfl, Account.codeHash_ofCode balance code⟩
  missing address hmissing := by
    have hfind : (ofInserts inserts).find? address = none := by
      rw [← contains_ofInserts, Bool.not_eq_true] at hmissing
      exact (OrderedMap.contains_eq_false_iff _ _).1 hmissing
    simp [AccountSource.codeSize, source, hfind]

end AccountBook

end CallGate
