import CallGate.Operand

/-!
# What a refusal says

The words for a fault in a hexadecimal text say which fault it is: whether the length is odd, and
otherwise which byte is no digit and where it stands.

* `unquote_quoteByte`: a byte is read back from its quoted form.
* `Fault.message_injective`: faults with the same words are the same fault.
* `OperandError.message_bytes_injective`: the same for what is reported to the user.
-/

namespace CallGate

namespace Hex

/-- The byte that a quoted form stands for. -/
def unquote : List Char → Nat
  | ['\'', c, '\''] => c.toNat
  | ['\'', '\\', c, '\''] =>
    match c with
    | '0' => 0
    | 't' => 9
    | 'n' => 10
    | 'r' => 13
    | c => c.toNat
  | '\'' :: '\\' :: 'u' :: '\x7b' :: rest =>
    (rest.takeWhile (· ≠ '\x7d')).foldl
      (fun n c => 16 * n + (digitValue? (UInt8.ofNat c.toNat)).getD 0) 0
  | _ => 0

/-- Each of the 256 bytes is found again in the character that shows it. -/
theorem unquote_quoteByte_of_lt : ∀ n : Fin 256,
    unquote (quoteByte (UInt8.ofNat n.val)).toList = n.val := by
  decide +kernel

/-- A byte is read back from its quoted form. -/
theorem unquote_quoteByte (byte : UInt8) : unquote (quoteByte byte).toList = byte.toNat := by
  have h := unquote_quoteByte_of_lt ⟨byte.toNat, byte.toNat_lt⟩
  rwa [UInt8.ofNat_toNat] at h

/-- Different bytes are shown differently. -/
theorem quoteByte_injective : Function.Injective quoteByte := by
  intro first second h
  rw [← UInt8.toNat_inj, ← unquote_quoteByte, h, unquote_quoteByte]

/-- A numeral has no space in it. -/
theorem space_notMem_render (n : Nat) : ' ' ∉ Decimal.render n := by
  intro h
  have hdigit := List.all_eq_true.1 (Decimal.all_isDigit_render n) ' ' h
  revert hdigit
  decide

/-- A numeral is what stands behind the last space. -/
theorem append_space_render_inj {first second : List Char} {m n : Nat}
    (h : first ++ ' ' :: Decimal.render m = second ++ ' ' :: Decimal.render n) :
    first = second ∧ m = n := by
  have hlast : ∀ {m n : Nat} {between : List Char},
      ' ' :: Decimal.render m = between ++ ' ' :: Decimal.render n → between = [] ∧ m = n := by
    intro m n between h
    cases between with
    | nil =>
      have hrender : Decimal.render m = Decimal.render n := (List.cons.inj h).2
      exact ⟨rfl, by rw [← Decimal.value_render m, hrender, Decimal.value_render]⟩
    | cons c rest =>
      -- The other numeral would have a space in it.
      have hrender := (List.cons.inj h).2
      exact absurd (hrender ▸ by simp) (space_notMem_render m)
  rcases List.append_eq_append_iff.1 h with ⟨between, hsecond, hrest⟩ | ⟨between, hfirst, hrest⟩
  · obtain ⟨rfl, rfl⟩ := hlast hrest
    exact ⟨by rw [hsecond, List.append_nil], rfl⟩
  · obtain ⟨rfl, rfl⟩ := hlast hrest
    exact ⟨by rw [hfirst, List.append_nil], rfl⟩

/-- The message names the byte, and then the position behind the last space. -/
theorem toList_message_invalidDigit (byte : UInt8) (position : Nat) :
    (Fault.message (.invalidDigit byte position)).toList =
      "Invalid character ".toList ++ (quoteByte byte).toList ++ " at position".toList ++
        ' ' :: Decimal.render position := by
  have hspace : " at position ".toList = " at position".toList ++ [' '] := by decide +kernel
  have hnumeral : (Decimal.text position).toList = Decimal.render position :=
    String.toList_ofList
  show ("Invalid character " ++ quoteByte byte ++ " at position " ++
    Decimal.text position).toList = _
  rw [String.toList_append, String.toList_append, String.toList_append, hspace, hnumeral,
    ← List.append_assoc, List.append_assoc, List.singleton_append]

/-- An odd number of digits is reported in other words than a wrong character. -/
theorem message_oddLength_ne (byte : UInt8) (position : Nat) :
    Fault.message .oddLength ≠ Fault.message (.invalidDigit byte position) := by
  intro h
  have hlist := congrArg (fun text => text.toList.head?) h
  have hodd : (Fault.message .oddLength).toList.head? = some 'O' := by decide +kernel
  have hinvalid : "Invalid character ".toList = 'I' :: "nvalid character ".toList := by
    decide +kernel
  simp only [hodd, toList_message_invalidDigit, hinvalid, List.cons_append,
    List.head?_cons] at hlist
  revert hlist
  decide

/-- Faults with the same words are the same fault. -/
theorem Fault.message_injective : Function.Injective Fault.message := by
  intro first second h
  cases first with
  | oddLength =>
    cases second with
    | oddLength => rfl
    | invalidDigit byte position => exact absurd h (message_oddLength_ne byte position)
  | invalidDigit byte position =>
    cases second with
    | oddLength => exact absurd h.symm (message_oddLength_ne byte position)
    | invalidDigit byte' position' =>
      -- The position stands behind the last space, and the byte between the fixed words.
      have hlist := congrArg String.toList h
      rw [toList_message_invalidDigit, toList_message_invalidDigit] at hlist
      obtain ⟨hwords, rfl⟩ := append_space_render_inj hlist
      have hquoted := List.append_cancel_left (List.append_cancel_right hwords)
      obtain rfl := quoteByte_injective (String.toList_inj.1 hquoted)
      rfl

end Hex

/-- Different faults of a byte string have different messages. -/
theorem OperandError.message_bytes_injective :
    Function.Injective fun fault => (OperandError.bytes fault).message := by
  intro first second h
  have hlist : "invalid hex: ".toList ++ first.message.toList =
      "invalid hex: ".toList ++ second.message.toList := by
    rw [← String.toList_append, ← String.toList_append]
    exact congrArg String.toList h
  exact Hex.Fault.message_injective (String.toList_inj.1 (List.append_cancel_left hlist))

end CallGate
