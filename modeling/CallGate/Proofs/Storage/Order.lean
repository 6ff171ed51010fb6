import Mathlib.Data.Finset.Sort
import CallGate.Proofs.FixedBytes
import CallGate.Proofs.Storage.Slots

/-!
# Slots in the order of numbers

A word is an unsigned number of 256 bits, and words are ordered as their numbers. So the slots of a
set come in increasing order of the numbers that their keys are.

* `Slots.sortedLT_numbers`: the keys of a set increase as numbers.
* `Slots.numbers_run`: after a run the keys are the numbers that were written, sorted.
* `Slots.numeric_order`: words, their numbers and the order of slots together.
-/

namespace CallGate.Slots

open OrderedMap

/-- The keys of a set as numbers, in the order in which the set has them. -/
def numbers (slots : Slots) : List Nat :=
  slots.keys.map FixedBytes.toNat

/-- The slots of a set stand in the order of their numbers. -/
theorem sortedLT_numbers (slots : Slots) : slots.numbers.SortedLT := by
  apply List.Pairwise.sortedLT
  rw [numbers, keys, List.map_map, List.pairwise_map]
  refine slots.sorted.imp fun {earlier later} hlt => ?_
  rw [FixedBytes.compare_eq_compare_toNat, Nat.compare_eq_lt] at hlt
  exact hlt

/-- The slots of a set are those of its history. -/
theorem mem_numbers_ofList_iff (history : List (Word × Word)) (number : Nat) :
    number ∈ numbers (.ofList history) ↔ number ∈ history.map fun entry => entry.1.toNat := by
  have hkeys (key : Word) : key ∈ (ofList history : Slots).keys ↔ key ∈ history.map Prod.fst := by
    rw [mem_keys_iff, find?_ofList, isSome_lastValue?_iff]
  simp only [numbers, List.mem_map, hkeys, Prod.exists, exists_and_right, exists_eq_right]

/-- After a run the keys are the numbers of all keys that were written, sorted and each once. -/
theorem numbers_run (collected : List (Word × Word)) (steps : List (Step Word Word)) :
    numbers ((ofList collected).run steps).2 =
      ((collected ++ steps.flatMap Step.written).map fun entry => entry.1.toNat).toFinset.sort := by
  rw [run_ofList]
  refine (sortedLT_numbers _).eq_of_mem_iff (Finset.sortedLT_sort _) fun number => ?_
  rw [mem_numbers_ofList_iff, Finset.mem_sort, List.mem_toFinset]

/-- Words are the unsigned numbers of 256 bits in their order.

* The number of a word has the bytes of the word as its digits in base 256, most significant first,
  and it determines the word; every number below `2 ^ 256` is the number of its word.
* Words compare as their numbers do, and the one word that is zero is the word of zero.
* The keys of every set of slots increase as numbers: after any run they are the numbers of the keys
  that were written, sorted. -/
theorem numeric_order :
    (∀ word : Word, word.toNat < 2 ^ 256 ∧
      word.toNat = Nat.ofDigits 256 (word.bytes.reverse.map UInt8.toNat) ∧
      FixedBytes.ofNat word.toNat = word) ∧
    (∀ number < 2 ^ 256, (FixedBytes.ofNat number : Word).toNat = number) ∧
    (∀ first second : Word, compare first second = compare first.toNat second.toNat) ∧
    (∀ word : Word, word.isZero = true ↔ word.toNat = 0) ∧
    (∀ slots : Slots, slots.entries.Pairwise fun earlier later =>
      earlier.1.toNat < later.1.toNat) ∧
    (∀ collected steps, numbers ((ofList collected).run steps).2 =
      ((collected ++ steps.flatMap Step.written).map
        fun entry => entry.1.toNat).toFinset.sort) := by
  have hwidth : 256 ^ 32 = 2 ^ 256 := by decide
  refine ⟨fun word => ⟨?_, Bytes.toNatBE_eq_ofDigits word.bytes, word.ofNat_toNat⟩, ?_,
    FixedBytes.compare_eq_compare_toNat, FixedBytes.isZero_iff_toNat_eq_zero, ?_, numbers_run⟩
  · exact hwidth ▸ word.toNat_lt
  · intro number hnumber
    exact FixedBytes.toNat_ofNat_of_lt (hwidth ▸ hnumber)
  · intro slots
    have h := slots.sortedLT_numbers.pairwise
    rwa [numbers, keys, List.map_map, List.pairwise_map] at h

-- Two keys that come the other way round if the last byte counts most.
example :
    let slots : Slots := .ofList [(.ofNat 256, .zero), (.ofNat (2 ^ 255), .zero), (.ofNat 2, .zero)]
    slots.numbers = [2, 256, 2 ^ 255] := by
  decide

end CallGate.Slots
