import CallGate.Proofs.Command.Completion
import CallGate.Proofs.Settings.Check
import CallGate.Proofs.Settings.Document
import CallGate.Proofs.Text.Trim
import CallGate.Text.Utf8

/-!
# Settings that are shown and read again

What the tool shows of its settings is their document, and the document is read as the settings. If
some of it is left out, it is read as the settings with the defaults in these places, unless they do
not pass their check: a number that is given may be the default of one that is left out.

* `Settings.completion_shown`: what the tool prints of its settings.
* `Settings.load_utf8`: what is read of a file that holds a document.
* `Settings.document_readBack`: what is read of a document, and of its parts.
-/

namespace CallGate

/-- No digit is white space. -/
theorem Text.isBlank_of_isDigit {c : Char} (h : Decimal.isDigit c = true) : isBlank c = false := by
  obtain ⟨hlow, hhigh⟩ := Decimal.toNat_of_isDigit h
  have hranges : ∀ range ∈ blankRanges, range.2 < 48 ∨ 57 < range.1 := by decide
  rw [isBlank, List.any_eq_false]
  intro range hrange
  have hapart := hranges range hrange
  simp only [Bool.and_eq_true, decide_eq_true_eq]
  omega

/-- A text is read back from its UTF-8 form. -/
theorem Text.fromUTF8?_utf8 (text : List Char) :
    String.fromUTF8? (utf8 text).toByteArray = some (String.ofList text) :=
  dif_pos ⟨text, rfl⟩

namespace Settings

/-- The line of a number ends with a digit and a line end. -/
theorem exists_line_eq (key : String) (n : Nat) :
    ∃ front digit, line key (Decimal.text n) = front ++ [digit] ++ ['\n'] ∧
      Decimal.isDigit digit = true := by
  have hne := Decimal.render_ne_nil n
  have hdigit := List.all_eq_true.1 (Decimal.all_isDigit_render n) _ (List.getLast_mem hne)
  have hdigits : (Decimal.text n).toList =
      (Decimal.render n).dropLast ++ [(Decimal.render n).getLast hne] := by
    rw [Decimal.text, String.toList_ofList, List.dropLast_append_getLast hne]
  refine ⟨key.toList ++ ' ' :: '=' :: ' ' :: (Decimal.render n).dropLast, _, ?_, hdigit⟩
  rw [line, hdigits]
  simp only [List.append_assoc, List.cons_append, List.nil_append]

/-- The document ends as its last line does, which is that of a number. -/
theorem exists_document_eq (settings : Settings) :
    ∃ front digit, settings.document = front ++ [digit] ++ ['\n'] ∧
      Decimal.isDigit digit = true := by
  obtain ⟨before, hbefore⟩ : ∃ before, settings.document =
      before ++ line Syscall.call.name (Decimal.text settings.numbering.call) := by
    rw [document, show Syscall.all = [.ret, .log, .selfDestruct] ++ [.call] from rfl,
      List.flatMap_append, ← List.append_assoc, List.flatMap_singleton]
    exact ⟨_, rfl⟩
  obtain ⟨front, digit, hline, hdigit⟩ := exists_line_eq Syscall.call.name settings.numbering.call
  refine ⟨before ++ front, digit, ?_, hdigit⟩
  rw [hbefore, hline, ← List.append_assoc, ← List.append_assoc]

/-- The tool shows the document of its settings. -/
theorem completion_shown {settings : Settings} (h : settings.isWritable = true)
    (path : Option String) :
    (Invocation.mk false path (.settings true)).completion settings =
      { exitCode := 0, stdout := String.ofList settings.document } := by
  have hrender : settings.render = .ok settings.document := if_pos h
  obtain ⟨front, digit, hdocument, hdigit⟩ := settings.exists_document_eq
  -- Of the document nothing but the last line end is cut off, and the tool prints one again.
  have hshown : (settings.document.reverse.dropWhile Text.isBlank).reverse = front ++ [digit] := by
    show settings.document.rdropWhile Text.isBlank = _
    rw [hdocument, List.rdropWhile_concat_pos _ _ _ (by decide),
      List.rdropWhile_concat_neg _ _ _ (by simp [Text.isBlank_of_isDigit hdigit])]
  have hreport : Command.settingsReport settings true =
      .ok [.remark (String.ofList (front ++ [digit])), .data "config" settings.json] := by
    rw [Command.settingsReport, if_pos rfl, hrender]
    show Except.ok [ReportItem.remark
      (String.ofList (settings.document.reverse.dropWhile Text.isBlank).reverse), _] = _
    rw [hshown]
  have hprinted (text : List Char) :
      "\n".intercalate [String.ofList text] ++ "\n" = String.ofList (text ++ ['\n']) := by
    simp
  rw [Invocation.completion, Command.execute, hreport, hdocument, ← hprinted]
  rfl

/-- A file that holds a document is read as the document. -/
theorem load_utf8 (document : List Char) :
    load (.contents (Text.utf8 document)) = (read document).mapError .settings := by
  rw [load, Text.fromUTF8?_utf8]
  show (read (String.ofList document).toList).mapError HostError.settings = _
  rw [String.toList_ofList]

/-- A document that leaves nothing out is the document. -/
theorem documentWithout_nothing (settings : Settings) :
    settings.documentWithout {} = settings.document := by
  simp [documentWithout, document, Item.all, Item.name, valueText, capacity]

/-- Settings that pass their check can be written if their numbers can. -/
theorem capacity_le_of_check {settings : Settings} (h : settings.check = .ok ())
    (buffer : Buffer) : settings.capacity buffer ≤ Toml.maxInteger := by
  obtain ⟨⟨-, hcall⟩, ⟨-, hlog⟩, -⟩ := settings.check_eq_ok_iff.1 h
  have hmaximum : 16 * 1024 * 1024 ≤ Toml.maxInteger := by decide
  cases buffer with
  | call => exact hcall.trans hmaximum
  | log => exact hlog.trans hmaximum

/-- Settings that pass their check and whose numbers are at most the largest integer of a document
can be written, and what is written, which is also what the tool shows, is read as the settings, as
it stands and from a file. Whatever is left out, the document is read as the settings with the
default in its place, exactly if these pass their check, and else refused for the same fault. So is
every other document whose entries tell what is not left out. -/
theorem document_readBack {settings : Settings} (hcheck : settings.check = .ok ())
    (hnumber : ∀ syscall, settings.numbering.number syscall ≤ 2 ^ 63 - 1) :
    (settings.render = .ok (settings.documentWithout {}) ∧
      read (settings.documentWithout {}) = .ok settings ∧
      load (.contents (Text.utf8 (settings.documentWithout {}))) = .ok settings ∧
      ∀ path, (Invocation.mk false path (.settings true)).completion settings =
        { exitCode := 0, stdout := String.ofList (settings.documentWithout {}) }) ∧
    (∀ omission, ReadsAs (settings.documentWithout omission) (settings.without omission)) ∧
    ∀ omission document entries, Toml.document? document = some entries →
      settings.Tells omission entries → ReadsAs document (settings.without omission) := by
  have hcapacity := capacity_le_of_check hcheck
  have hwritable : settings.isWritable = true := settings.isWritable_iff.2 ⟨hcapacity, hnumber⟩
  have hreads (omission : Omission) :
      ReadsAs (settings.documentWithout omission) (settings.without omission) := by
    obtain ⟨entries, hdocument, htells⟩ := document?_documentWithout hcapacity hnumber omission
    exact readsAs_of_tells hdocument htells
  -- Of these settings nothing is left out.
  have hread : read (settings.documentWithout {}) = .ok settings := by
    have hnothing := hreads {}
    rw [without_nothing] at hnothing
    exact hnothing.1.2 hcheck
  refine ⟨⟨?_, hread, ?_, fun path => ?_⟩, hreads,
    fun omission document entries => readsAs_of_tells⟩
  · rw [documentWithout_nothing]
    exact if_pos hwritable
  · rw [load_utf8, hread]
    rfl
  · rw [documentWithout_nothing]
    exact completion_shown hwritable path

/-- A number that is the default of another operation can be read back, but not without the number
of that operation. Without the table both have their defaults. -/
theorem document_readBack_collision :
    let settings : Settings :=
      { callCapacity := 125, numbering := { log := Syscall.call.defaultNumber, call := 4000 } }
    settings.check = .ok () ∧ (∀ syscall, settings.numbering.number syscall ≤ 2 ^ 63 - 1) ∧
      read (settings.documentWithout {}) = .ok settings ∧
      read (settings.documentWithout { syscalls := {.call} }) = .error (.repeatedNumber 3078) ∧
      read (settings.documentWithout { items := {.statusPolicy}, table := true }) =
        .ok { callCapacity := 125 } := by
  intro settings
  have hcheck : settings.check = .ok () := rfl
  have hnumber (syscall : Syscall) : settings.numbering.number syscall ≤ 2 ^ 63 - 1 := by
    cases syscall <;> decide
  obtain ⟨⟨-, hread, -⟩, hreads, -⟩ := document_readBack hcheck hnumber
  exact ⟨hcheck, hnumber, hread, ((hreads _).2 _).2 rfl, (hreads _).1.2 rfl⟩

end Settings

end CallGate
