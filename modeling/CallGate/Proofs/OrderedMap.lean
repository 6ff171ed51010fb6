import CallGate.OrderedMap

/-!
# Lookups and entries of ordered maps

* `OrderedMap.find?_insert`: an insertion changes the lookup of its key alone.
* `OrderedMap.find?_eq_some_iff`: the value found for a key is that of the key's only entry.
* `OrderedMap.keyCount_insert`: an insertion takes its key's value out of a count and the new value
  in.
-/

namespace CallGate.OrderedMap

variable {κ ν : Type} [Ord κ]

/-- After an insertion the inserted key has the new value and any other its old one. -/
theorem find?_insert [DecidableEq κ] [Std.TransOrd κ] [Std.LawfulEqOrd κ] (map : OrderedMap κ ν)
    (key other : κ) (value : ν) :
    (map.insert key value).find? other = if key = other then some value else map.find? other := by
  by_cases h : key = other
  · rw [if_pos h, ← h, find?_insert_self]
  · rw [if_neg h, find?_insert_of_ne _ (Ne.symm h)]

/-- A value that is found is that of an entry. -/
theorem mem_of_valueAt? [Std.LawfulEqOrd κ] {key : κ} {value : ν} {entries : List (κ × ν)}
    (h : valueAt? key entries = some value) : (key, value) ∈ entries := by
  induction entries with
  | nil => cases h
  | cons head rest ih =>
    obtain ⟨k, v⟩ := head
    rw [valueAt?] at h
    split at h
    · next heq =>
      obtain rfl := Std.LawfulEqOrd.eq_of_compare heq
      cases h
      exact List.mem_cons_self
    · exact List.mem_cons_of_mem _ (ih h)

/-- In an ordered list the value of every entry is found: no entry before it has its key. -/
theorem valueAt?_of_mem [Std.OrientedOrd κ] {key : κ} {value : ν} {entries : List (κ × ν)}
    (hsorted : entries.Pairwise fun a b => compare a.1 b.1 = .lt) (h : (key, value) ∈ entries) :
    valueAt? key entries = some value := by
  induction entries with
  | nil => cases h
  | cons head rest ih =>
    obtain ⟨k, v⟩ := head
    obtain ⟨hhead, hrest⟩ := List.pairwise_cons.1 hsorted
    rw [valueAt?]
    rcases List.mem_cons.1 h with heq | hmem
    · cases heq
      rw [if_pos Std.ReflOrd.compare_self]
    · have hgt : compare key k = .gt := Std.OrientedCmp.gt_iff_lt.2 (hhead _ hmem)
      rw [if_neg (by simp [hgt]), ih hrest hmem]

/-- The value found for a key is that of the key's only entry. -/
theorem find?_eq_some_iff [Std.TransOrd κ] [Std.LawfulEqOrd κ] (map : OrderedMap κ ν) (key : κ)
    (value : ν) : map.find? key = some value ↔ (key, value) ∈ map.entries :=
  ⟨mem_of_valueAt?, valueAt?_of_mem map.sorted⟩

/-- A key that is not contained is not found. -/
theorem contains_eq_false_iff (map : OrderedMap κ ν) (key : κ) :
    map.contains key = false ↔ map.find? key = none := by
  rw [contains, Option.isSome_eq_false_iff, Option.isNone_iff_eq_none]

/-! ## Counting keys -/

/-- How many keys have a value that passes a test. -/
def keyCount (test : ν → Bool) (map : OrderedMap κ ν) : Nat :=
  map.keys.countP fun key => (map.find? key).any test

variable [Std.TransOrd κ] [Std.LawfulEqOrd κ]

/-- Each key has one entry, so entries can be counted in place of keys. -/
theorem keyCount_eq_countP (test : ν → Bool) (map : OrderedMap κ ν) :
    map.keyCount test = map.entries.countP fun entry => test entry.2 := by
  rw [keyCount, keys, List.countP_map]
  apply List.countP_congr
  rintro ⟨key, value⟩ hentry
  have hfind : map.find? key = some value := (find?_eq_some_iff ..).2 hentry
  simp [hfind]

/-- An insertion takes what the key held out of a count of values and puts the new value in. -/
theorem countP_insertEntry (test : ν → Bool) (key : κ) (value : ν) {entries : List (κ × ν)}
    (hsorted : entries.Pairwise fun a b => compare a.1 b.1 = .lt) :
    (insertEntry key value entries).countP (fun entry => test entry.2) +
        ((valueAt? key entries).any test).toNat =
      entries.countP (fun entry => test entry.2) + (test value).toNat := by
  induction entries with
  | nil => cases htest : test value <;> simp [insertEntry, valueAt?, htest]
  | cons head rest ih =>
    obtain ⟨k, v⟩ := head
    obtain ⟨hhead, hrest⟩ := List.pairwise_cons.1 hsorted
    rw [insertEntry, valueAt?]
    split
    · next hlt =>
      -- The key is below all others, so there is no value that the new one replaces.
      have hnone : valueAt? key rest = none :=
        valueAt?_eq_none fun entry hentry => Std.TransCmp.lt_trans hlt (hhead entry hentry)
      cases htest : test value <;> simp [hlt, hnone, htest, List.countP_cons, Nat.add_assoc]
    · next heq =>
      simp only [heq, if_true, Option.any_some, List.countP_cons]
      cases test value <;> cases test v <;> simp
    · next hgt =>
      have hcounts := ih hrest
      simp only [hgt, List.countP_cons, reduceCtorEq, if_false]
      omega

/-- An insertion takes the value that its key had out of a count, and the new value in. -/
theorem keyCount_insert (test : ν → Bool) (map : OrderedMap κ ν) (key : κ) (value : ν) :
    (map.insert key value).keyCount test + ((map.find? key).any test).toNat =
      map.keyCount test + (test value).toNat := by
  rw [keyCount_eq_countP, keyCount_eq_countP]
  exact countP_insertEntry test key value map.sorted

end CallGate.OrderedMap
