import Mathlib.Data.List.DropRight
import CallGate.Text.Blank

/-!
# The core of a text

A text is white space, a core, and white space again, where the core neither starts nor ends with
white space. There is one such core, and `trim` gives it.

* `trim_append`: white space around a text does not matter.
* `encloses_iff`: the core of a text is what `trim` leaves of it.
-/

namespace CallGate.Text

/-- A text consists of white space alone. -/
def AllBlank (text : List Char) : Prop :=
  ∀ c ∈ text, isBlank c = true

/-- A text neither starts nor ends with white space. -/
structure Bare (text : List Char) : Prop where
  head : ∀ c, text.head? = some c → isBlank c = false
  last : ∀ c, text.getLast? = some c → isBlank c = false

/-- A text is a bare core with white space around it. -/
def Encloses (text core : List Char) : Prop :=
  Bare core ∧ ∃ before after, AllBlank before ∧ AllBlank after ∧ text = before ++ core ++ after

theorem trim_eq_rdropWhile (text : List Char) :
    trim text = (text.dropWhile isBlank).rdropWhile isBlank := rfl

/-- White space at the start is dropped. -/
theorem dropWhile_append_of_allBlank {before : List Char} (h : AllBlank before)
    (text : List Char) : (before ++ text).dropWhile isBlank = text.dropWhile isBlank :=
  List.dropWhile_append_of_pos h

/-- White space at the end is dropped. -/
theorem rdropWhile_append_of_allBlank {after : List Char} (h : AllBlank after)
    (text : List Char) : (text ++ after).rdropWhile isBlank = text.rdropWhile isBlank := by
  have hreverse : AllBlank after.reverse := fun c hc => h c (List.mem_reverse.1 hc)
  unfold List.rdropWhile
  rw [List.reverse_append, dropWhile_append_of_allBlank hreverse]

/-- White space around a text does not matter. -/
theorem trim_append {before after : List Char} (hbefore : AllBlank before)
    (hafter : AllBlank after) (text : List Char) : trim (before ++ text ++ after) = trim text := by
  rw [trim_eq_rdropWhile, trim_eq_rdropWhile, List.append_assoc,
    dropWhile_append_of_allBlank hbefore, List.dropWhile_append]
  split
  · next hempty =>
    -- All of the text is white space, and so is what follows it.
    rw [List.isEmpty_iff.1 hempty, List.dropWhile_eq_nil_iff.2 hafter]
  · exact rdropWhile_append_of_allBlank hafter _

/-- A text without white space at its ends is left as it is. -/
theorem Bare.trim_eq {core : List Char} (h : Bare core) : trim core = core := by
  have hhead : core.dropWhile isBlank = core := by
    rw [List.dropWhile_eq_self_iff]
    intro hlength
    simp [h.head core[0] (List.head?_eq_getElem? ▸ List.getElem?_eq_getElem hlength)]
  rw [trim_eq_rdropWhile, hhead, List.rdropWhile_eq_self_iff]
  intro hne
  simp [h.last _ (List.getLast?_eq_some_getLast hne)]

/-- What is cut off at the end leaves the start as it was. -/
theorem bare_trim (text : List Char) : Bare (trim text) where
  head c hc := by
    obtain ⟨rest, hrest⟩ := List.head?_eq_some_iff.1 hc
    obtain ⟨cut, hcut⟩ := List.rdropWhile_prefix isBlank (text.dropWhile isBlank)
    have hstart := List.head?_dropWhile_not isBlank text
    rw [← hcut, ← trim_eq_rdropWhile, hrest] at hstart
    exact hstart
  last c hc := by
    obtain ⟨hne, rfl⟩ := List.mem_getLast?_eq_getLast hc
    exact Bool.eq_false_iff.2 (List.rdropWhile_last_not isBlank _ hne)

/-- The core of a text is what `trim` leaves of it. -/
theorem encloses_iff (text core : List Char) : Encloses text core ↔ core = trim text := by
  constructor
  · rintro ⟨hbare, before, after, hbefore, hafter, rfl⟩
    rw [trim_append hbefore hafter, hbare.trim_eq]
  · rintro rfl
    refine ⟨bare_trim text, text.takeWhile isBlank,
      (text.dropWhile isBlank).rtakeWhile isBlank, ?_, ?_, ?_⟩
    · intro c hc
      exact List.mem_takeWhile_imp hc
    · intro c hc
      exact List.mem_rtakeWhile_imp hc
    · rw [trim_eq_rdropWhile, List.append_assoc, List.rdropWhile_append_rtakeWhile,
        List.takeWhile_append_dropWhile]

end CallGate.Text
