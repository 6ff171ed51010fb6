import Mathlib.Data.List.Dedup
import CallGate.Proofs.OrderedMap
import CallGate.Proofs.Run
import CallGate.Storage.Overlay

/-!
# Sets of slots by their history

A map that is collected from entries and then changed by steps is determined by its history, the
entries that were written one after another: each key has the value of the last entry written for
it. Maps whose histories end with the same values are the same map, and come in the same order. For
a set of slots that is the order of the bytes of the keys.

* `OrderedMap.find?_ofList`: a lookup gives the last value.
* `OrderedMap.perm_keys`: the keys are the keys of the history, each once.
* `OrderedMap.run_ofList`: a run adds to the history.
* `Slots.run_canonical`: the set, its order and the answers of its steps after a run.
-/

namespace CallGate

/-- Words are ordered as their bytes, at the first byte in which they differ. -/
theorem FixedBytes.compare_eq_lt_iff {n : Nat} (a b : FixedBytes n) :
    compare a b = .lt ↔ a.bytes < b.bytes := by
  rw [compare_eq]
  generalize a.bytes = first
  generalize b.bytes = second
  induction first generalizing second with
  | nil => cases second <;> simp
  | cons x rest ih =>
    cases second with
    | nil => simp
    | cons y others =>
      -- The first bytes decide, unless they are equal.
      rw [List.compare_cons_cons, List.cons_lt_cons_iff, ← ih, Ordering.then_eq_lt,
        Std.compare_eq_lt, Std.compare_eq_iff_eq]

namespace OrderedMap

variable {κ ν : Type} [DecidableEq κ]

/-- The value of the last entry with a key. -/
def lastValue? (key : κ) (entries : List (κ × ν)) : Option ν :=
  (entries.filterMap fun entry => if entry.1 = key then some entry.2 else none).getLast?

/-- The last value of a key is in the second list if that has the key. -/
theorem lastValue?_append (key : κ) (first second : List (κ × ν)) :
    lastValue? key (first ++ second) = (lastValue? key second).or (lastValue? key first) := by
  rw [lastValue?, List.filterMap_append, List.getLast?_append]
  rfl

/-- The last value of a key stands in the list with it. -/
theorem mem_of_lastValue? {key : κ} {value : ν} {entries : List (κ × ν)}
    (h : lastValue? key entries = some value) : (key, value) ∈ entries := by
  obtain ⟨⟨k, v⟩, hentry, hvalue⟩ := List.mem_filterMap.1 (List.mem_of_getLast? h)
  obtain ⟨rfl, rfl⟩ : k = key ∧ v = value := by simpa using hvalue
  exact hentry

/-- A key has a last value if it is the key of an entry. -/
theorem isSome_lastValue?_iff (key : κ) (entries : List (κ × ν)) :
    (lastValue? key entries).isSome ↔ key ∈ entries.map Prod.fst := by
  rw [lastValue?, List.getLast?_isSome]
  simp [List.filterMap_eq_nil_iff]

variable [Ord κ] [Std.TransOrd κ] [Std.LawfulEqOrd κ]

/-- The entries inserted later count before the entries of the map. -/
theorem find?_insertAll (map : OrderedMap κ ν) (entries : List (κ × ν)) (key : κ) :
    (map.insertAll entries).find? key = (lastValue? key entries).or (map.find? key) := by
  induction entries generalizing map with
  | nil => rfl
  | cons entry rest ih =>
    -- The rest is inserted into the map that has the first entry already.
    show ((map.insert entry.1 entry.2).insertAll rest).find? key = _
    rw [ih, find?_insert, ← List.singleton_append, lastValue?_append, Option.or_assoc]
    congr 1
    by_cases hkey : entry.1 = key <;> simp [lastValue?, hkey]

/-- A map finds the last value of each key. -/
theorem find?_ofList (entries : List (κ × ν)) (key : κ) :
    (ofList entries : OrderedMap κ ν).find? key = lastValue? key entries := by
  rw [ofList, find?_insertAll, find?_empty, Option.or_none]

omit [DecidableEq κ] in
theorem ofList_append (first second : List (κ × ν)) :
    (ofList (first ++ second) : OrderedMap κ ν) = (ofList first).insertAll second :=
  List.foldl_append

omit [DecidableEq κ] in
/-- The keys of a map are those with a value. -/
theorem mem_keys_iff (map : OrderedMap κ ν) (key : κ) :
    key ∈ map.keys ↔ (map.find? key).isSome := by
  rw [Option.isSome_iff_exists, keys, List.mem_map]
  constructor
  · rintro ⟨⟨_, value⟩, hentry, rfl⟩
    exact ⟨value, (find?_eq_some_iff ..).2 hentry⟩
  · rintro ⟨value, hfind⟩
    exact ⟨(key, value), (find?_eq_some_iff ..).1 hfind, rfl⟩

omit [DecidableEq κ] [Std.TransOrd κ] in
/-- No key occurs twice: each is below those after it. -/
theorem nodup_keys (map : OrderedMap κ ν) : map.keys.Nodup := by
  rw [keys, List.Nodup, List.pairwise_map]
  refine map.sorted.imp fun hlt heq => ?_
  rw [heq, Std.ReflOrd.compare_self] at hlt
  cases hlt

/-- The keys of a map are those of its history, each once. -/
theorem perm_keys (entries : List (κ × ν)) :
    (ofList entries : OrderedMap κ ν).keys.Perm (entries.map Prod.fst).dedup := by
  rw [List.perm_ext_iff_of_nodup (nodup_keys _) (List.nodup_dedup _)]
  intro key
  rw [mem_keys_iff, find?_ofList, isSome_lastValue?_iff, List.mem_dedup]

/-- A map has as many entries as there are different keys. -/
theorem size_ofList (entries : List (κ × ν)) :
    (ofList entries : OrderedMap κ ν).size = (entries.map Prod.fst).dedup.length := by
  rw [← (perm_keys entries).length_eq, keys, List.length_map, size]

/-- A map is the map of its own entries. -/
theorem ofList_entries (map : OrderedMap κ ν) : ofList map.entries = map := by
  apply ext_find?
  intro key
  rw [find?_ofList]
  ext value
  constructor
  · intro hlast
    exact (find?_eq_some_iff ..).2 (mem_of_lastValue? hlast)
  · intro hfind
    -- The last value is that of an entry, and there is no other entry with the key.
    have hkey : key ∈ map.entries.map Prod.fst :=
      List.mem_map_of_mem (f := Prod.fst) ((find?_eq_some_iff ..).1 hfind)
    obtain ⟨found, hlast⟩ := Option.isSome_iff_exists.1 ((isSome_lastValue?_iff ..).2 hkey)
    have hfound : map.find? key = some found :=
      (find?_eq_some_iff ..).2 (mem_of_lastValue? hlast)
    rw [hlast, ← hfound, hfind]

/-! ## Steps and runs -/

namespace Step

variable {κ ν : Type} [DecidableEq κ]

omit [DecidableEq κ] in
/-- The entries that a step writes, from first to last. -/
def written : Step κ ν → List (κ × ν)
  | .insert key value => [(key, value)]
  | .extend entries => entries
  | _ => []

/-- What a step answers after the entries written before it. -/
def replyAfter (history : List (κ × ν)) : Step κ ν → Reply ν
  | .insert key _ => .displaced (lastValue? key history)
  | .extend _ => .done
  | .lookup key => .value (lastValue? key history)
  | .contains key => .contained (decide (key ∈ history.map Prod.fst))

end Step

/-- A step adds what it writes to the history, and answers from the history before it. -/
theorem step_ofList (history : List (κ × ν)) (step : Step κ ν) :
    (ofList history).step step = (step.replyAfter history, ofList (history ++ step.written)) := by
  cases step with
  | insert key value =>
    simp only [OrderedMap.step, replace_eq, find?_ofList, Step.written, ofList_append]
    rfl
  | extend entries =>
    simp only [Step.written, ofList_append]
    rfl
  | lookup key =>
    simp only [OrderedMap.step, find?_ofList, Step.written, List.append_nil]
    rfl
  | contains key =>
    have hcontains : (ofList history).contains key = decide (key ∈ history.map Prod.fst) := by
      rw [contains, find?_ofList, Bool.eq_iff_iff, decide_eq_true_iff]
      exact isSome_lastValue?_iff key history
    simp only [OrderedMap.step, hcontains, Step.written, List.append_nil]
    rfl

omit [DecidableEq κ] in
theorem isRun : IsRun (@OrderedMap.step κ ν _ _ _) OrderedMap.run :=
  ⟨fun _ => rfl, fun _ _ _ => rfl⟩

/-- A run adds what its steps write to the history. -/
theorem run_ofList (history : List (κ × ν)) (steps : List (Step κ ν)) :
    ((ofList history).run steps).2 = ofList (history ++ steps.flatMap Step.written) := by
  induction steps generalizing history with
  | nil => rw [List.flatMap_nil, List.append_nil, isRun.nil]
  | cons step rest ih =>
    rw [List.flatMap_cons, ← List.append_assoc, ← ih, isRun.cons, step_ofList]

/-- A step of a run answers from the history before it. -/
theorem getElem?_run (history : List (κ × ν)) (before : List (Step κ ν)) (step : Step κ ν)
    (after : List (Step κ ν)) :
    ((ofList history).run (before ++ step :: after)).1[before.length]? =
      some (step.replyAfter (history ++ before.flatMap Step.written)) := by
  rw [isRun.getElem?, run_ofList, step_ofList]

end OrderedMap

namespace Slots

open OrderedMap

/-- What a set of slots is after a history. -/
structure Records (slots : Slots) (history : List (Word × Word)) : Prop where
  /-- A slot has the value of the last entry written for it. -/
  lookup : ∀ key, slots.find? key = lastValue? key history
  /-- A slot that was written has a value, and no other has. -/
  contains : ∀ key, (slots.contains key = true ↔ key ∈ history.map Prod.fst) ∧
    slots.contains key = (slots.find? key).isSome
  /-- The keys come in increasing order of their bytes. -/
  increasing : slots.entries.Pairwise fun earlier later => earlier.1.bytes < later.1.bytes
  /-- A slot comes exactly once if it has a value. -/
  once : ∀ key, slots.keys.count key = if slots.contains key then 1 else 0
  /-- A slot comes with the value that a lookup gives. -/
  values : ∀ key value, (key, value) ∈ slots.entries ↔ slots.find? key = some value
  /-- There are as many entries as slots that were written. -/
  size : slots.size = (history.map Prod.fst).dedup.length

/-- A set of slots records its history. -/
theorem records_ofList (history : List (Word × Word)) : Records (.ofList history) history where
  lookup := find?_ofList history
  contains key := by
    rw [contains, find?_ofList]
    exact ⟨isSome_lastValue?_iff key history, rfl⟩
  increasing := (ofList history).sorted.imp fun hlt =>
    (FixedBytes.compare_eq_lt_iff _ _).1 hlt
  once key := by
    rw [(nodup_keys _).count]
    exact if_congr (mem_keys_iff _ key) rfl rfl
  values key value := (find?_eq_some_iff ..).symm
  size := size_ofList history

/-- After any run a set is what its history says. Each step has answered from the history before
it; in particular an insertion answers with the lookup before it. Sets are equal exactly if their
lookups are, so the last values of two histories decide whether their sets are equal and come in the
same order, and the entries of a set collected again are the set. -/
theorem run_canonical (collected : List (Word × Word)) (steps : List (Step Word Word)) :
    let slots := ((ofList collected).run steps).2
    let history := collected ++ steps.flatMap Step.written
    Records slots history ∧
    ((ofList collected).run steps).1.length = steps.length ∧
    (∀ before step after, steps = before ++ step :: after →
      ((ofList collected).run steps).1[before.length]? =
        some (step.replyAfter (collected ++ before.flatMap Step.written))) ∧
    (∀ before key value after, steps = before ++ .insert key value :: after →
      ((ofList collected).run steps).1[before.length]? =
        some (.displaced (((ofList collected).run before).2.find? key))) ∧
    (∀ other : Slots, slots = other ↔ ∀ key, slots.find? key = other.find? key) ∧
    (∀ other : Slots, slots = other ↔ slots.entries = other.entries) ∧
    (∀ collected' steps',
      slots = ((ofList collected').run steps').2 ↔
        ∀ key, lastValue? key history =
          lastValue? key (collected' ++ steps'.flatMap Step.written)) ∧
    ofList slots.entries = slots := by
  intro slots history
  have hslots : slots = ofList history := run_ofList collected steps
  have hequal (other : Slots) : slots = other ↔ ∀ key, slots.find? key = other.find? key :=
    ⟨fun h key => by rw [h], ext_find?⟩
  refine ⟨hslots ▸ records_ofList history, isRun.length _ steps, ?_, ?_, hequal, ?_, ?_,
    ofList_entries slots⟩
  · rintro before step after rfl
    exact getElem?_run collected before step after
  · rintro before key value after rfl
    rw [getElem?_run, run_ofList, find?_ofList]
    rfl
  · intro other
    constructor
    · rintro rfl
      rfl
    · intro h
      rw [← ofList_entries slots, h, ofList_entries]
  · intro collected' steps'
    -- The lookups of both sets are the last values of their histories.
    rw [hequal]
    simp only [hslots, run_ofList, find?_ofList]

-- A key is written three times, by the collected entries, by an extension and by an insertion. A
-- value of zero does not make a key absent.
example :
    let word (n : Nat) : Word := .ofNat n
    let (replies, slots) := run (.ofList [(word 256, word 1), (word 2, word 5)])
      [.extend [(word 2, word 6), (word 2, word 7)], .insert (word 2) .zero, .lookup (word 2),
        .insert (word 3) (word 4), .contains (word 255)]
    replies = [.done, .displaced (some (word 7)), .value (some .zero), .displaced none,
        .contained false] ∧
      slots.entries = [(word 2, .zero), (word 3, word 4), (word 256, word 1)] := by
  decide

end Slots

end CallGate
