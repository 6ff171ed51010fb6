/-!
# Ordered maps

A finite map is the list of its entries in strictly increasing order of their keys, so two maps
with the same lookups are the same value.

An `OrderedMap.Step` is one use of a map and `OrderedMap.run` is a sequence of them.

* `find?_insert_self`, `find?_insert_of_ne`: an insertion changes the lookup of its key alone.
* `replace_eq`: a replacement is an insertion that gives back the value found before it.
* `ext_find?`: maps with the same lookups are equal.
-/

namespace CallGate

/-- A finite map from keys to values, ordered by key. -/
structure OrderedMap (κ ν : Type) [Ord κ] where
  /-- The entries, in increasing order of their keys. -/
  entries : List (κ × ν)
  /-- Each key is below the keys after it. -/
  sorted : entries.Pairwise fun a b => compare a.1 b.1 = .lt
deriving DecidableEq

namespace OrderedMap

section Entries

variable {κ ν : Type} [Ord κ]

/-- Put an entry into an ordered list, in place of an entry with the same key. -/
def insertEntry (key : κ) (value : ν) : List (κ × ν) → List (κ × ν)
  | [] => [(key, value)]
  | (k, v) :: rest =>
    match compare key k with
    | .lt => (key, value) :: (k, v) :: rest
    | .eq => (key, value) :: rest
    | .gt => (k, v) :: insertEntry key value rest

/-- Put an entry into an ordered list, and give back the value that its key had. -/
def replaceEntry (key : κ) (value : ν) : List (κ × ν) → Option ν × List (κ × ν)
  | [] => (none, [(key, value)])
  | (k, v) :: rest =>
    match compare key k with
    | .lt => (none, (key, value) :: (k, v) :: rest)
    | .eq => (some v, (key, value) :: rest)
    | .gt =>
      let (displaced, rest) := replaceEntry key value rest
      (displaced, (k, v) :: rest)

/-- The value of the first entry with a key. -/
def valueAt? (key : κ) : List (κ × ν) → Option ν
  | [] => none
  | (k, v) :: rest => if compare key k = .eq then some v else valueAt? key rest

/-- An entry after an insertion is the new one or an old one. -/
theorem mem_insertEntry {key : κ} {value : ν} {entry : κ × ν} {entries : List (κ × ν)}
    (h : entry ∈ insertEntry key value entries) : entry = (key, value) ∨ entry ∈ entries := by
  induction entries with
  | nil => simpa [insertEntry] using h
  | cons head rest ih =>
    obtain ⟨k, v⟩ := head
    rw [insertEntry] at h
    split at h
    · simpa using h
    · simp only [List.mem_cons] at h ⊢
      exact h.imp id .inr
    · simp only [List.mem_cons] at h ⊢
      rcases h with h | h
      · exact .inr (.inl h)
      · exact (ih h).imp id .inr

/-- An insertion keeps the keys in order. -/
theorem pairwise_insertEntry [Std.TransOrd κ] [Std.LawfulEqOrd κ] (key : κ) (value : ν)
    {entries : List (κ × ν)} (h : entries.Pairwise fun a b => compare a.1 b.1 = .lt) :
    (insertEntry key value entries).Pairwise fun a b => compare a.1 b.1 = .lt := by
  induction entries with
  | nil => simp [insertEntry]
  | cons head rest ih =>
    obtain ⟨k, v⟩ := head
    obtain ⟨hhead, hrest⟩ := List.pairwise_cons.1 h
    rw [insertEntry]
    split
    · next hlt =>
      refine List.pairwise_cons.2 ⟨fun entry hentry => ?_, h⟩
      rcases List.mem_cons.1 hentry with rfl | hmem
      · exact hlt
      · exact Std.TransCmp.lt_trans hlt (hhead entry hmem)
    · next heq =>
      obtain rfl := Std.LawfulEqOrd.eq_of_compare heq
      exact List.pairwise_cons.2 ⟨hhead, hrest⟩
    · next hgt =>
      refine List.pairwise_cons.2 ⟨fun entry hentry => ?_, ih hrest⟩
      rcases mem_insertEntry hentry with rfl | hmem
      · exact Std.OrientedCmp.gt_iff_lt.1 hgt
      · exact hhead entry hmem

/-- The inserted key has the inserted value. -/
theorem valueAt?_insertEntry_self [Std.ReflOrd κ] (key : κ) (value : ν)
    (entries : List (κ × ν)) : valueAt? key (insertEntry key value entries) = some value := by
  induction entries with
  | nil => simp [insertEntry, valueAt?]
  | cons head rest ih =>
    obtain ⟨k, v⟩ := head
    rw [insertEntry]
    split
    · simp [valueAt?]
    · simp [valueAt?]
    · next hgt => simp [valueAt?, hgt, ih]

/-- No other key has its value changed. -/
theorem valueAt?_insertEntry_of_ne [Std.LawfulEqOrd κ] {key other : κ} (hne : other ≠ key)
    (value : ν) (entries : List (κ × ν)) :
    valueAt? other (insertEntry key value entries) = valueAt? other entries := by
  have hcompare : ¬compare other key = .eq := fun h => hne (Std.LawfulEqOrd.eq_of_compare h)
  induction entries with
  | nil => simp [insertEntry, valueAt?, hcompare]
  | cons head rest ih =>
    obtain ⟨k, v⟩ := head
    rw [insertEntry]
    split
    · simp [valueAt?, hcompare]
    · next heq =>
      obtain rfl := Std.LawfulEqOrd.eq_of_compare heq
      simp [valueAt?, hcompare]
    · simp [valueAt?, ih]

/-- A key below all others has no value. -/
theorem valueAt?_eq_none [Std.ReflOrd κ] {key : κ} {entries : List (κ × ν)}
    (h : ∀ entry ∈ entries, compare key entry.1 = .lt) : valueAt? key entries = none := by
  induction entries with
  | nil => rfl
  | cons head rest ih =>
    obtain ⟨k, v⟩ := head
    have hhead : compare key k = .lt := h _ List.mem_cons_self
    rw [valueAt?, if_neg (by simp [hhead])]
    exact ih fun entry hentry => h entry (List.mem_cons_of_mem _ hentry)

/-- A replacement leaves the entries that an insertion leaves. -/
theorem replaceEntry_snd (key : κ) (value : ν) (entries : List (κ × ν)) :
    (replaceEntry key value entries).2 = insertEntry key value entries := by
  induction entries with
  | nil => rfl
  | cons head rest ih =>
    rw [replaceEntry, insertEntry]
    split
    · rfl
    · rfl
    · exact congrArg (List.cons _) ih

/-- The value that is displaced is the one found before. The search stops at the first key above,
and no key after it is the same. -/
theorem replaceEntry_fst [Std.TransOrd κ] (key : κ) (value : ν) {entries : List (κ × ν)}
    (h : entries.Pairwise fun a b => compare a.1 b.1 = .lt) :
    (replaceEntry key value entries).1 = valueAt? key entries := by
  induction entries with
  | nil => rfl
  | cons head rest ih =>
    obtain ⟨hhead, hrest⟩ := List.pairwise_cons.1 h
    rw [replaceEntry, valueAt?]
    split
    · next hlt =>
      rw [hlt, if_neg (by decide)]
      exact (valueAt?_eq_none fun entry hentry =>
        Std.TransCmp.lt_trans hlt (hhead entry hentry)).symm
    · next heq => rw [if_pos heq]
    · next hgt =>
      rw [hgt, if_neg (by decide)]
      exact ih hrest

/-- Ordered entries that give every key the same value are the same. -/
theorem entries_eq_of_valueAt? [Std.TransOrd κ] [Std.LawfulEqOrd κ]
    {first second : List (κ × ν)}
    (hfirst : first.Pairwise fun a b => compare a.1 b.1 = .lt)
    (hsecond : second.Pairwise fun a b => compare a.1 b.1 = .lt)
    (h : ∀ key, valueAt? key first = valueAt? key second) : first = second := by
  induction first generalizing second with
  | nil =>
    cases second with
    | nil => rfl
    | cons head rest => simpa [valueAt?] using h head.1
  | cons head rest ih =>
    obtain ⟨k, v⟩ := head
    obtain ⟨hk, hrest⟩ := List.pairwise_cons.1 hfirst
    cases second with
    | nil => simpa [valueAt?] using h k
    | cons head' rest' =>
      obtain ⟨k', v'⟩ := head'
      obtain ⟨hk', hrest'⟩ := List.pairwise_cons.1 hsecond
      have hlt_of_lt : ∀ {a b : κ} {l : List (κ × ν)}, compare a b = .lt →
          (∀ entry ∈ l, compare b entry.1 = .lt) → ∀ entry ∈ l, compare a entry.1 = .lt :=
        fun hab hl entry hentry => Std.TransCmp.lt_trans hab (hl entry hentry)
      -- The smaller of the two first keys would have a value in one list alone.
      have hkeys : k = k' := by
        rcases hc : compare k k' with _ | _ | _
        · have hfind := h k
          rw [valueAt?, if_pos Std.ReflOrd.compare_self, valueAt?, if_neg (by simp [hc]),
            valueAt?_eq_none (hlt_of_lt hc hk')] at hfind
          exact absurd hfind (by simp)
        · exact Std.LawfulEqOrd.eq_of_compare hc
        · have hc' := Std.OrientedCmp.gt_iff_lt.1 hc
          have hfind := h k'
          rw [valueAt?, if_neg (by simp [hc']), valueAt?_eq_none (hlt_of_lt hc' hk),
            valueAt?, if_pos Std.ReflOrd.compare_self] at hfind
          exact absurd hfind (by simp)
      subst hkeys
      have hvalues : v = v' := by
        have hfind := h k
        rw [valueAt?, if_pos Std.ReflOrd.compare_self, valueAt?,
          if_pos Std.ReflOrd.compare_self] at hfind
        exact Option.some.inj hfind
      subst hvalues
      -- The first key has no value in the rests, and any other has its value there.
      refine congrArg _ (ih hrest hrest' fun key => ?_)
      have hfind := h key
      by_cases hc : compare key k = .eq
      · obtain rfl := Std.LawfulEqOrd.eq_of_compare hc
        rw [valueAt?_eq_none hk, valueAt?_eq_none hk']
      · rwa [valueAt?, if_neg hc, valueAt?, if_neg hc] at hfind

end Entries

variable {κ ν : Type} [Ord κ]

/-- The map without entries. -/
def empty : OrderedMap κ ν :=
  ⟨[], List.Pairwise.nil⟩

instance : EmptyCollection (OrderedMap κ ν) := ⟨empty⟩

instance : Inhabited (OrderedMap κ ν) := ⟨empty⟩

/-- The value of a key. -/
def find? (map : OrderedMap κ ν) (key : κ) : Option ν :=
  valueAt? key map.entries

/-- Whether a key has a value. -/
def contains (map : OrderedMap κ ν) (key : κ) : Bool :=
  (map.find? key).isSome

/-- Number of keys that have a value. -/
def size (map : OrderedMap κ ν) : Nat :=
  map.entries.length

/-- Whether no key has a value. -/
def isEmpty (map : OrderedMap κ ν) : Bool :=
  map.entries.isEmpty

/-- The keys, in increasing order. -/
def keys (map : OrderedMap κ ν) : List κ :=
  map.entries.map Prod.fst

/-- One use of a map. -/
inductive Step (κ ν : Type) where
  /-- Give a key a value. -/
  | insert (key : κ) (value : ν)
  /-- Give keys values, from first to last. -/
  | extend (entries : List (κ × ν))
  /-- Look up the value of a key. -/
  | lookup (key : κ)
  /-- Ask whether a key has a value. -/
  | contains (key : κ)
deriving DecidableEq

/-- What a step answers. -/
inductive Reply (ν : Type) where
  /-- Nothing. -/
  | done
  /-- The value that was replaced. -/
  | displaced (value : Option ν)
  /-- The value of a key, if it has one. -/
  | value (value : Option ν)
  /-- Whether a key has a value. -/
  | contained (contained : Bool)
deriving DecidableEq

@[simp]
theorem find?_empty (key : κ) : (empty : OrderedMap κ ν).find? key = none := rfl

section Lawful

variable [Std.TransOrd κ] [Std.LawfulEqOrd κ]

/-- Give a key a value, in place of its value so far. -/
def insert (map : OrderedMap κ ν) (key : κ) (value : ν) : OrderedMap κ ν :=
  ⟨insertEntry key value map.entries, pairwise_insertEntry key value map.sorted⟩

/-- Give a key a value, and give back its value so far. -/
def replace (map : OrderedMap κ ν) (key : κ) (value : ν) : Option ν × OrderedMap κ ν :=
  let replaced := replaceEntry key value map.entries
  (replaced.1, ⟨replaced.2,
    replaceEntry_snd key value map.entries ▸ pairwise_insertEntry key value map.sorted⟩)

/-- Insert entries from first to last. -/
def insertAll (map : OrderedMap κ ν) (entries : List (κ × ν)) : OrderedMap κ ν :=
  entries.foldl (fun map entry => map.insert entry.1 entry.2) map

/-- The map of a list of entries; of several entries with one key the last counts. -/
def ofList (entries : List (κ × ν)) : OrderedMap κ ν :=
  empty.insertAll entries

/-- The inserted key is found with the inserted value. -/
@[simp]
theorem find?_insert_self (map : OrderedMap κ ν) (key : κ) (value : ν) :
    (map.insert key value).find? key = some value :=
  valueAt?_insertEntry_self key value map.entries

/-- Any other key is found as before. -/
theorem find?_insert_of_ne (map : OrderedMap κ ν) {key other : κ} (hne : other ≠ key)
    (value : ν) : (map.insert key value).find? other = map.find? other :=
  valueAt?_insertEntry_of_ne hne value map.entries

/-- The answer to a step and the map after it. -/
def step (map : OrderedMap κ ν) : Step κ ν → Reply ν × OrderedMap κ ν
  | .insert key value =>
    let (displaced, map) := map.replace key value
    (.displaced displaced, map)
  | .extend entries => (.done, map.insertAll entries)
  | .lookup key => (.value (map.find? key), map)
  | .contains key => (.contained (map.contains key), map)

/-- The answers to a sequence of steps and the map after the last. -/
def run (map : OrderedMap κ ν) : List (Step κ ν) → List (Reply ν) × OrderedMap κ ν
  | [] => ([], map)
  | step :: steps =>
    let (reply, map) := map.step step
    let (replies, map) := map.run steps
    (reply :: replies, map)

/-- A replacement is an insertion that gives back the value found before it. -/
theorem replace_eq (map : OrderedMap κ ν) (key : κ) (value : ν) :
    map.replace key value = (map.find? key, map.insert key value) := by
  simp only [replace, insert, find?, replaceEntry_snd, replaceEntry_fst key value map.sorted]

/-- Maps with the same lookups are equal. -/
theorem ext_find? {first second : OrderedMap κ ν}
    (h : ∀ key, first.find? key = second.find? key) : first = second := by
  have hentries := entries_eq_of_valueAt? first.sorted second.sorted h
  cases first
  cases second
  cases hentries
  rfl

end Lawful

end OrderedMap

end CallGate
