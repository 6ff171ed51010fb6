import Mathlib.Data.List.Basic
import CallGate.Proofs.Decimal
import CallGate.Toml.Value

/-!
# Values at the end of a line

Numerals, truth values and strings of plain characters between double quotes stand for their
numbers, truth values and texts in a document, where a value ends with its line. Bare keys stand for
themselves.

* `Denotes`: a text stands for a value.
* `denotes_render`, `denotes_true`, `denotes_false`, `denotes_quoted`: the three kinds of value.
* `path?_bare`: a bare key in front of an equals sign is read as a path of one key.
-/

namespace CallGate

namespace Decimal

/-- A numeral has at least one digit. -/
theorem render_ne_nil (n : Nat) : render n ≠ [] := by
  rw [render]
  split <;> simp

/-- No numeral of several digits starts with a zero. -/
theorem render_ne_zero_cons (n : Nat) (c : Char) (rest : List Char) :
    render n ≠ '0' :: c :: rest := by
  fun_induction render n generalizing c rest with
  | case1 n h => simp
  | case2 n h ih =>
    intro hrender
    cases hhead : render (n / 10) with
    | nil => exact render_ne_nil _ hhead
    | cons d digits =>
      rw [hhead] at hrender
      cases digits with
      | nil =>
        -- The number in front of the last digit would be zero.
        have hvalue := value_render (n / 10)
        cases hrender
        rw [hhead] at hvalue
        have hzero : value ['0'] = 0 := rfl
        omega
      | cons e digits =>
        cases hrender
        exact ih _ _ hhead

end Decimal

namespace Toml

/-! ## Numerals -/

/-- Digits without an underscore between them are left as they are. -/
theorem separated?_of_all {isDigit : Char → Bool} (hunderscore : isDigit '_' = false)
    {digits : List Char} (hne : digits ≠ []) (h : digits.all isDigit = true) :
    separated? isDigit digits = some digits := by
  induction digits with
  | nil => exact absurd rfl hne
  | cons c rest ih =>
    rw [List.all_cons, Bool.and_eq_true] at h
    obtain ⟨hc, hrest⟩ := h
    cases rest with
    | nil => rw [separated?, if_pos hc]
    | cons d rest =>
      have hd : d ≠ '_' := by
        rintro rfl
        simp [hunderscore] at hrest
      rw [separated?, if_pos hc, ih (List.cons_ne_nil d rest) hrest, Option.map_some]
      · simp
      · simpa using hd

/-- The numeral of a number is a decimal number of a document: it has no leading zero. -/
theorem decimal?_render (n : Nat) : decimal? (Decimal.render n) = some (Decimal.render n) := by
  rw [decimal?, separated?_of_all rfl (Decimal.render_ne_nil n) (Decimal.all_isDigit_render n)]
  split
  · next c rest h => exact absurd (Option.some.inj h) (Decimal.render_ne_zero_cons n c rest)
  · rfl

/-- A decimal digit has one value, whether it is read as decimal or to any other base. -/
theorem digitValue_of_isDigit {c : Char} (h : Decimal.isDigit c = true) :
    digitValue c = Decimal.digitValue c := by
  rw [digitValue, if_pos h, Decimal.digitValue]

/-- A numeral is read as its number if that is within the limit. -/
theorem valueUpTo_render {n limit : Nat} (h : n ≤ limit) :
    valueUpTo 10 limit 0 (Decimal.render n) = some n := by
  have hvalue : (Decimal.render n).foldl (fun n c => 10 * n + digitValue c) 0 = n := by
    calc (Decimal.render n).foldl (fun n c => 10 * n + digitValue c) 0
      _ = (Decimal.render n).foldl (fun n c => 10 * n + Decimal.digitValue c) 0 := by
          apply List.foldl_ext
          intro m c hc
          rw [digitValue_of_isDigit (List.all_eq_true.1 (Decimal.all_isDigit_render n) c hc)]
      _ = n := Decimal.value_render n
  rw [valueUpTo_eq (by decide) (Nat.zero_le limit), hvalue, if_pos h]

/-- The numeral of a number is the number, if it is not too large. -/
theorem integer?_render {n : Nat} (h : n ≤ maxInteger) :
    integer? (Decimal.render n) = some (n : Int) := by
  have hsign : splitSign (Decimal.render n) = (false, Decimal.render n) := by
    have hall := Decimal.all_isDigit_render n
    rw [splitSign]
    · intro rest hrest
      rw [hrest] at hall
      cases hall
    · intro rest hrest
      rw [hrest] at hall
      cases hall
  have hsmall : n ≤ maxMagnitude false := h
  have hmagnitude : ((decimal? (Decimal.render n)).bind
      (valueUpTo 10 (maxMagnitude false) 0)).map (signed false) = some (n : Int) := by
    rw [decimal?_render, Option.bind_some, valueUpTo_render hsmall]
    rfl
  rw [integer?]
  · rw [hsign]
    exact hmagnitude
  -- It is not taken for a number in another base.
  all_goals exact fun digits => Decimal.render_ne_zero_cons n _ digits

/-! ## Values -/

/-- A text that starts with no blank is left as it is. -/
theorem skipBlanks_cons {c : Char} (h : isBlank c = false) (text : List Char) :
    skipBlanks (c :: text) = c :: text :=
  List.dropWhile_cons_of_neg (by rw [h]; exact Bool.false_ne_true)

/-- A text stands for a value, wherever it is followed by the end of its line. Blanks may precede
it. -/
def Denotes (text : List Char) (node : Node) : Prop :=
  ∀ count rest,
    value? count maxDepth (skipBlanks (text ++ '\n' :: rest)) = some (node, '\n' :: rest)

theorem exists_maxDepth_eq : ∃ depth, maxDepth = depth + 1 := ⟨_, rfl⟩

/-- Whether a character starts a value that is no word. -/
def startsBracket (c : Char) : Bool :=
  c == '[' || c == '\x7b' || c == '"' || c == '\''

/-- A word is read up to the end of its line. -/
theorem scalar?_word {word : List Char} (h : ∀ c ∈ word, endsWord c = false) (rest : List Char) :
    scalar? (word ++ '\n' :: rest) = (word? word).map (·, '\n' :: rest) := by
  have hall : ∀ c ∈ word, (!endsWord c) = true := fun c hc => by rw [h c hc]; rfl
  have htake : (word ++ '\n' :: rest).takeWhile (fun c => !endsWord c) = word := by
    rw [List.takeWhile_append_of_pos hall]
    exact List.append_nil word
  have hdrop : (word ++ '\n' :: rest).dropWhile (fun c => !endsWord c) = '\n' :: rest := by
    rw [List.dropWhile_append_of_pos hall]
    rfl
  rw [scalar?, htake, hdrop]
  rfl

/-- A value that starts with no quote is not read as a text. -/
theorem string?_eq_none {c : Char} (h : startsBracket c = false) (text : List Char) :
    string? (c :: text) = none := by
  have hdouble : c ≠ '"' := by rintro rfl; cases h
  have hsingle : c ≠ '\'' := by rintro rfl; cases h
  rw [string?, quoted?] <;> simp_all

/-- A word stands for its value. -/
theorem denotes_word {word : List Char} {node : Node} (hword : word? word = some node)
    (hends : word.any endsWord = false)
    (hstart : word.head?.any (fun c => !startsBracket c) = true) : Denotes word node := by
  cases word with
  | nil => cases hstart
  | cons c word =>
    intro count rest
    rw [List.head?_cons, Option.any_some, Bool.not_eq_true'] at hstart
    simp only [List.any_eq_false, Bool.not_eq_true] at hends
    have hblank : isBlank c = false := by
      have hc := hends c List.mem_cons_self
      simp only [endsWord, Bool.or_eq_false_iff] at hc
      exact hc.1.1.1.1.1.1
    obtain ⟨depth, hdepth⟩ := exists_maxDepth_eq
    rw [List.cons_append, skipBlanks_cons hblank, hdepth, value?]
    · rw [string?_eq_none hstart, ← List.cons_append]
      show scalar? _ = _
      rw [scalar?_word hends, hword, Option.map_some]
    · rintro _ ⟨⟩
      cases hstart
    · rintro _ ⟨⟩
      cases hstart

/-- A digit does not end a word. -/
theorem endsWord_of_isDigit {c : Char} (h : Decimal.isDigit c = true) : endsWord c = false := by
  rw [← Bool.not_eq_true]
  intro hends
  simp only [endsWord, isBlank, Bool.or_eq_true, beq_iff_eq] at hends
  rcases hends with ((((((rfl | rfl) | rfl) | rfl) | rfl) | rfl) | rfl) | rfl <;> cases h

/-- A digit starts no quoted or bracketed value. -/
theorem startsBracket_of_isDigit {c : Char} (h : Decimal.isDigit c = true) :
    startsBracket c = false := by
  rw [← Bool.not_eq_true]
  intro hstart
  simp only [startsBracket, Bool.or_eq_true, beq_iff_eq] at hstart
  rcases hstart with ((rfl | rfl) | rfl) | rfl <;> cases h

/-- A numeral stands for its number, if it is not too large. -/
theorem denotes_render {n : Nat} (h : n ≤ maxInteger) :
    Denotes (Decimal.render n) (.integer n) := by
  have hall := List.all_eq_true.1 (Decimal.all_isDigit_render n)
  have hword : word? (Decimal.render n) = some (.integer n) := by
    -- A numeral is none of the words, as these have letters.
    have hne (name : String) (hname : name.toList.all Decimal.isDigit = false) :
        Decimal.render n ≠ name.toList := by
      intro heq
      rw [← heq, Decimal.all_isDigit_render] at hname
      cases hname
    rw [word?, if_neg (hne "true" (by decide)), if_neg (hne "false" (by decide)),
      integer?_render h]
  obtain ⟨c, rest, hrender⟩ := List.exists_cons_of_ne_nil (Decimal.render_ne_nil n)
  refine denotes_word hword ?_ ?_
  · rw [List.any_eq_false]
    intro c hc
    rw [endsWord_of_isDigit (hall c hc)]
    exact Bool.false_ne_true
  · have hc : Decimal.isDigit c = true := hall c (hrender ▸ List.mem_cons_self)
    rw [hrender, List.head?_cons, Option.any_some, startsBracket_of_isDigit hc]
    rfl

/-- The word `true` stands for truth. -/
theorem denotes_true : Denotes "true".toList (.boolean true) :=
  denotes_word (if_pos rfl) (by decide) (by decide)

/-- The word `false` stands for falsity. -/
theorem denotes_false : Denotes "false".toList (.boolean false) :=
  denotes_word ((if_neg (by decide)).trans (if_pos rfl)) (by decide) (by decide)

/-- Whether a character stands for itself between double quotes. -/
def standsQuoted (c : Char) : Bool :=
  isPlain c && c != '"' && c != '\\'

/-- A text in which nothing has to be escaped is read up to its closing quote. -/
theorem basicBody_append {text : List Char} (h : ∀ c ∈ text, standsQuoted c = true)
    (rest : List Char) : basicBody (text ++ '"' :: rest) = some (text, rest) := by
  induction text with
  | nil => rw [List.nil_append, basicBody]
  | cons c text ih =>
    rw [List.forall_mem_cons] at h
    obtain ⟨hc, htext⟩ := h
    simp only [standsQuoted, Bool.and_eq_true, bne_iff_ne] at hc
    obtain ⟨⟨hplain, hquote⟩, hbackslash⟩ := hc
    rw [List.cons_append, basicBody, ih htext]
    · simp [consText, hplain, hbackslash]
    all_goals simp_all

/-- Characters that stand for themselves, between double quotes, stand for their text. -/
theorem denotes_quoted {text : String} (h : text.toList.all standsQuoted = true) :
    Denotes ('"' :: text.toList ++ ['"']) (.string text) := by
  rw [List.all_eq_true] at h
  intro count rest
  have hshape : '"' :: text.toList ++ ['"'] ++ '\n' :: rest =
      '"' :: (text.toList ++ '"' :: '\n' :: rest) := by simp
  have hskip : skipBlanks ('"' :: (text.toList ++ '"' :: '\n' :: rest)) =
      '"' :: (text.toList ++ '"' :: '\n' :: rest) := rfl
  have hstring : string? ('"' :: (text.toList ++ '"' :: '\n' :: rest)) =
      some (text.toList, '\n' :: rest) := by
    rw [string?]
    · exact basicBody_append h _
    · -- Three quotes would start a string of several lines.
      intro after hquotes
      cases htext : text.toList with
      | nil =>
        rw [htext] at hquotes
        cases hquotes
      | cons c others =>
        rw [htext] at h hquotes
        simp only [List.cons_append, List.cons.injEq] at hquotes
        obtain ⟨-, rfl, -⟩ := hquotes
        cases h _ List.mem_cons_self
    · intro after hquotes
      cases hquotes
  obtain ⟨depth, hdepth⟩ := exists_maxDepth_eq
  rw [hshape, hskip, hdepth, value?, hstring]
  · simp
  all_goals simp

/-! ## Keys -/

/-- A text is a key without quotes. -/
def IsBare (key : String) : Prop :=
  key.toList ≠ [] ∧ key.toList.all isBareKey = true

instance (key : String) : Decidable (IsBare key) :=
  inferInstanceAs (Decidable (_ ∧ _))

/-- A bare key has a first character, which may stand in a bare key. -/
theorem IsBare.exists_cons {key : String} (h : IsBare key) :
    ∃ first others, key.toList = first :: others ∧ isBareKey first = true := by
  obtain ⟨first, others, hkey⟩ := List.exists_cons_of_ne_nil h.1
  exact ⟨first, others, hkey, List.all_eq_true.1 h.2 first (hkey ▸ List.mem_cons_self)⟩

/-- No character of a bare key is a blank. -/
theorem isBlank_of_isBareKey {c : Char} (h : isBareKey c = true) : isBlank c = false := by
  rw [← Bool.not_eq_true]
  intro hblank
  simp only [isBlank, Bool.or_eq_true, beq_iff_eq] at hblank
  rcases hblank with rfl | rfl <;> cases h

/-- A bare key starts with no blank. -/
theorem IsBare.skipBlanks_append {key : String} (h : IsBare key) (rest : List Char) :
    skipBlanks (key.toList ++ rest) = key.toList ++ rest := by
  obtain ⟨first, others, hkey, hfirst⟩ := h.exists_cons
  rw [hkey, List.cons_append, skipBlanks_cons (isBlank_of_isBareKey hfirst)]

/-- A bare key is read up to a character that cannot stand in it. -/
theorem key?_bare {key : String} (h : IsBare key) {c : Char} (hc : isBareKey c = false)
    (rest : List Char) : key? (key.toList ++ c :: rest) = some (key, c :: rest) := by
  have hall := List.all_eq_true.1 h.2
  have htake : (key.toList ++ c :: rest).takeWhile isBareKey = key.toList := by
    rw [List.takeWhile_append_of_pos hall, List.takeWhile_cons_of_neg (by simp [hc]),
      List.append_nil]
  have hdrop : (key.toList ++ c :: rest).dropWhile isBareKey = c :: rest := by
    rw [List.dropWhile_append_of_pos hall, List.dropWhile_cons_of_neg (by simp [hc])]
  obtain ⟨first, others, hkey, hfirst⟩ := h.exists_cons
  rw [key?, htake, hdrop, hkey]
  · show some (String.ofList (first :: others), c :: rest) = _
    rw [← hkey, String.ofList_toList]
  -- The key is not quoted.
  all_goals
    rw [hkey]
    rintro _ ⟨⟩
    cases hfirst

/-- A bare key is a path of one key, if no dot follows. -/
theorem path?_bare {key : String} (h : IsBare key) {c : Char} (hc : isBareKey c = false)
    {rest after : List Char} (hafter : skipBlanks (c :: rest) = after)
    (hdot : ∀ more, after ≠ '.' :: more) (count : Nat) :
    path? (count + 1) (key.toList ++ c :: rest) = some ([key], after) := by
  rw [path?, h.skipBlanks_append, key?_bare h hc, Option.bind_eq_bind, Option.bind_some]
  -- By `hdot` the path ends here.
  simp only [hafter]
  rfl

end Toml

end CallGate
