import Mathlib.Data.Finset.Insert
import CallGate.Proofs.Toml.Document
import CallGate.Settings.Document

/-!
# Documents that leave settings out

Settings can be left out of a document: single values, the whole table of numbers, and numbers in
the table. What is read is the settings with the default for everything that is left out, if these
pass their check.

* `Settings.documentWithout`, `Settings.without`: the document, and the settings that it is read as.
* `Settings.ofEntries?_of_tells`: entries that tell some of the settings, in whatever order and
  among whatever other entries.
* `Settings.document?_documentWithout`: the document has entries that tell what is not left out.
* `Settings.readsAs_of_tells`: settings are read if they pass their check.
-/

namespace CallGate

namespace Syscall

theorem isBare_name (syscall : Syscall) : Toml.IsBare syscall.name := by
  cases syscall <;> decide

theorem name_injective : Function.Injective name := by
  have hnodup : (all.map name).Nodup := by decide
  exact fun first second => List.inj_on_of_nodup_map hnodup first.mem_all second.mem_all

end Syscall

namespace Settings

open Toml (Node Entries)

/-- A setting that is a single value. -/
inductive Item where
  /-- The capacity of a buffer. -/
  | capacity (buffer : Buffer)
  /-- Where the gas left after a call is taken from. -/
  | gasAccounting
  /-- How storage writes are reported. -/
  | statusPolicy
  /-- Whether storage writes after a self-destruction are refused. -/
  | strictDestruct
deriving DecidableEq

/-- What is left out of a document. -/
structure Omission where
  /-- Single values. -/
  items : Finset Item := ∅
  /-- Whether the table of numbers is left out. -/
  table : Bool := false
  /-- Numbers that are left out of the table. -/
  syscalls : Finset Syscall := ∅

namespace Item

/-- All single values, in the order of the document. -/
def all : List Item :=
  [.capacity .call, .capacity .log, .gasAccounting, .statusPolicy, .strictDestruct]

/-- The key of a single value. -/
def name : Item → String
  | .capacity buffer => buffer.settingName
  | .gasAccounting => "gas_accounting"
  | .statusPolicy => "storage_status"
  | .strictDestruct => "strict_destruct"

theorem mem_all (item : Item) : item ∈ all := by
  rcases item with ⟨_ | _⟩ | _ | _ | _ <;> decide

theorem isBare_name (item : Item) : Toml.IsBare item.name := by
  rcases item with ⟨_ | _⟩ | _ | _ | _ <;> decide

theorem name_injective : Function.Injective name := by
  have hnodup : (all.map name).Nodup := by decide
  exact fun first second => List.inj_on_of_nodup_map hnodup first.mem_all second.mem_all

/-- No single value goes by the name of the table of numbers. -/
theorem name_ne_syscalls (item : Item) : item.name ≠ "syscalls" := by
  rcases item with ⟨_ | _⟩ | _ | _ | _ <;> decide

end Item

/-- The text of a single value in a document. -/
def valueText (settings : Settings) : Item → String
  | .capacity buffer => Decimal.text (settings.capacity buffer)
  | .gasAccounting => quotedText settings.gasAccounting.name
  | .statusPolicy => quotedText settings.statusPolicy.name
  | .strictDestruct => booleanText settings.strictDestruct

/-- A single value as a value of a document. -/
def node (settings : Settings) : Item → Node
  | .capacity buffer => .integer (settings.capacity buffer)
  | .gasAccounting => .string settings.gasAccounting.name
  | .statusPolicy => .string settings.statusPolicy.name
  | .strictDestruct => .boolean settings.strictDestruct

/-- The document of settings without the lines of what is left out. -/
def documentWithout (settings : Settings) (omission : Omission) : List Char :=
  (Item.all.filter (· ∉ omission.items)).flatMap
      (fun item => line item.name (settings.valueText item)) ++
    if omission.table then []
    else
      "\n[syscalls]\n".toList ++
        (Syscall.all.filter (· ∉ omission.syscalls)).flatMap fun syscall =>
          line syscall.name (Decimal.text (settings.numbering.number syscall))

/-- A single value, or its default if it is left out. -/
def Omission.valueOr {α : Type} (omission : Omission) (item : Item) (value default : α) : α :=
  if item ∈ omission.items then default else value

/-- The number of an operation, or its default if it is left out. -/
def Omission.numberOr (omission : Omission) (numbering : Numbering) (syscall : Syscall) : Nat :=
  if syscall ∈ omission.syscalls then syscall.defaultNumber else numbering.number syscall

/-- The numbers with the default for those that are left out. -/
def Omission.numberingOr (omission : Omission) (numbering : Numbering) : Numbering where
  ret := omission.numberOr numbering .ret
  log := omission.numberOr numbering .log
  selfDestruct := omission.numberOr numbering .selfDestruct
  call := omission.numberOr numbering .call

/-- The settings with the default for everything that is left out. -/
def without (settings : Settings) (omission : Omission) : Settings :=
  let default : Settings := {}
  { callCapacity :=
      omission.valueOr (.capacity .call) settings.callCapacity default.callCapacity
    logCapacity := omission.valueOr (.capacity .log) settings.logCapacity default.logCapacity
    gasAccounting := omission.valueOr .gasAccounting settings.gasAccounting default.gasAccounting
    statusPolicy := omission.valueOr .statusPolicy settings.statusPolicy default.statusPolicy
    strictDestruct :=
      omission.valueOr .strictDestruct settings.strictDestruct default.strictDestruct
    numbering :=
      if omission.table then default.numbering else omission.numberingOr settings.numbering }

/-- Settings of which nothing is left out are as they were. -/
theorem without_nothing (settings : Settings) : settings.without {} = settings := rfl

/-! ## Entries -/

/-- The entries of a table tell the numbers that are not left out, whatever else they tell. -/
def TellsNumbers (numbering : Numbering) (omission : Omission) (entries : Entries) : Prop :=
  ∀ syscall, entries.lookup syscall.name =
    if syscall ∈ omission.syscalls then none else some (.integer (numbering.number syscall))

/-- Entries tell what is not left out of settings, whatever else they tell. -/
structure Tells (settings : Settings) (omission : Omission) (entries : Entries) : Prop where
  items : ∀ item, entries.lookup (Item.name item) =
    if item ∈ omission.items then none else some (settings.node item)
  table : omission.table = true → entries.lookup "syscalls" = none
  numbers : omission.table = false → ∃ origin numbers,
    entries.lookup "syscalls" = some (.table origin numbers) ∧
      TellsNumbers settings.numbering omission numbers

/-- A number is read from its value in a document. -/
theorem natural?_integer (n : Nat) : natural? (.integer n) = some n := by
  simp [natural?]

theorem boolean?_boolean (value : Bool) : boolean? (.boolean value) = some value := rfl

/-- A gas accounting is read by its name. -/
theorem choice?_gasAccounting (accounting : GasAccounting) :
    choice? GasAccounting.name [.passThrough, .trailer] (.string accounting.name) =
      some accounting := by
  cases accounting <;> rfl

/-- A status policy is read by its name. -/
theorem choice?_statusPolicy (policy : StatusPolicy) :
    choice? StatusPolicy.name [.byEffect, .alwaysAdded] (.string policy.name) = some policy := by
  cases policy <;> rfl

/-- An entry that is there has its value, and one that is left out the default. -/
theorem entryOr_of_lookup {α : Type} {entries : Entries} {key : String} {left : Prop}
    [Decidable left] {node : Node} {value? : Node → Option α} {value : α}
    (hlookup : entries.lookup key = if left then none else some node)
    (hvalue : value? node = some value) (default : α) :
    entryOr entries key value? default = some (if left then default else value) := by
  rw [entryOr, hlookup]
  split_ifs
  · rfl
  · exact hvalue

/-- A table of numbers is read as those that it tells and the defaults of the others. -/
theorem numbering?_of_tells {numbering : Numbering} {omission : Omission} {entries : Entries}
    (h : TellsNumbers numbering omission entries) (origin : Toml.Origin) :
    numbering? (.table origin entries) = some (omission.numberingOr numbering) := by
  have hnumber (syscall : Syscall) :
      entryOr entries syscall.name natural? syscall.defaultNumber =
        some (omission.numberOr numbering syscall) :=
    entryOr_of_lookup (h syscall) (natural?_integer _) _
  rw [numbering?, hnumber, hnumber, hnumber, hnumber]
  rfl

/-- A single value is read as what the entries tell, or as its default if it is left out. -/
theorem entryOr_item {settings : Settings} {omission : Omission} {entries : Entries}
    (h : settings.Tells omission entries) {α : Type} (item : Item) {value? : Node → Option α}
    {value : α} (hvalue : value? (settings.node item) = some value) (default : α) :
    entryOr entries item.name value? default = some (omission.valueOr item value default) :=
  entryOr_of_lookup (h.items item) hvalue default

/-- The numbers are read as what the entries tell, or as the defaults if the table is left out. -/
theorem entryOr_numbering {settings : Settings} {omission : Omission} {entries : Entries}
    (h : settings.Tells omission entries) (default : Numbering) :
    entryOr entries "syscalls" numbering? default =
      some (if omission.table then default else omission.numberingOr settings.numbering) := by
  cases htable : omission.table with
  | true => rw [entryOr, h.table htable, if_pos rfl]
  | false =>
    obtain ⟨origin, numbers, hlookup, htells⟩ := h.numbers htable
    rw [entryOr, hlookup, if_neg Bool.false_ne_true]
    exact numbering?_of_tells htells origin

/-- Entries that tell what is not left out are read as the settings with the default for the
rest. -/
theorem ofEntries?_of_tells {settings : Settings} {omission : Omission} {entries : Entries}
    (h : settings.Tells omission entries) :
    ofEntries? entries = some (settings.without omission) := by
  -- Each entry is read as its value, or as its default if it is left out.
  have hcall : entryOr entries Buffer.call.settingName natural? ({} : Settings).callCapacity =
      some (settings.without omission).callCapacity :=
    entryOr_item h (.capacity .call) (natural?_integer _) _
  have hlog : entryOr entries Buffer.log.settingName natural? ({} : Settings).logCapacity =
      some (settings.without omission).logCapacity :=
    entryOr_item h (.capacity .log) (natural?_integer _) _
  have hgas : entryOr entries "gas_accounting"
      (choice? GasAccounting.name [.passThrough, .trailer]) ({} : Settings).gasAccounting =
      some (settings.without omission).gasAccounting :=
    entryOr_item h .gasAccounting (choice?_gasAccounting _) _
  have hstatus : entryOr entries "storage_status"
      (choice? StatusPolicy.name [.byEffect, .alwaysAdded]) ({} : Settings).statusPolicy =
      some (settings.without omission).statusPolicy :=
    entryOr_item h .statusPolicy (choice?_statusPolicy _) _
  have hstrict : entryOr entries "strict_destruct" boolean? ({} : Settings).strictDestruct =
      some (settings.without omission).strictDestruct :=
    entryOr_item h .strictDestruct (boolean?_boolean _) _
  have hnumbering : entryOr entries "syscalls" numbering? ({} : Settings).numbering =
      some (settings.without omission).numbering :=
    entryOr_numbering h _
  simp only [ofEntries?, hcall, hlog, hgas, hstatus, hstrict, hnumbering]
  rfl

/-! ## Documents -/

/-- A document is read as settings exactly if they pass their check, and what is wrong with the
settings is what is wrong with the document. -/
def ReadsAs (document : List Char) (settings : Settings) : Prop :=
  (read document = .ok settings ↔ settings.check = .ok ()) ∧
    ∀ fault, read document = .error fault ↔ settings.check = .error fault

/-- Whoever writes what is not left out, in whatever way, has it read with the default for the
rest. -/
theorem readsAs_of_tells {settings : Settings} {omission : Omission} {document : List Char}
    {entries : Entries} (hdocument : Toml.document? document = some entries)
    (h : settings.Tells omission entries) : ReadsAs document (settings.without omission) := by
  have hread : read document =
      (settings.without omission).check.map fun _ => settings.without omission := by
    rw [read, hdocument, Option.bind_eq_bind, Option.bind_some, ofEntries?_of_tells h]
    rfl
  rw [ReadsAs, hread]
  -- Nothing but the check decides what is read.
  cases (settings.without omission).check with
  | error fault => simp [Except.map]
  | ok done => simp [Except.map]

/-- Settings can be written if every number in them is one that a document can hold. -/
theorem isWritable_iff (settings : Settings) :
    settings.isWritable = true ↔
      (∀ buffer, settings.capacity buffer ≤ Toml.maxInteger) ∧
        ∀ syscall, settings.numbering.number syscall ≤ Toml.maxInteger := by
  simp only [isWritable, Numbering.numbers, Syscall.all, List.map_cons, List.map_nil,
    List.all_cons, List.all_nil, Bool.and_true, Bool.and_eq_true, decide_eq_true_eq]
  constructor
  · rintro ⟨hcall, hlog, hnumbers⟩
    refine ⟨fun buffer => ?_, fun syscall => ?_⟩
    · cases buffer
      · exact hcall
      · exact hlog
    · cases syscall <;> simp only [hnumbers]
  · rintro ⟨hcapacity, hnumber⟩
    exact ⟨hcapacity .call, hcapacity .log, hnumber .ret, hnumber .log, hnumber .selfDestruct,
      hnumber .call⟩

/-- A numeral stands for its number if a document can hold it. -/
theorem denotes_text {n : Nat} (h : n ≤ Toml.maxInteger) :
    Toml.Denotes (Decimal.text n).toList (.integer n) := by
  rw [Decimal.text, String.toList_ofList]
  exact Toml.denotes_render h

/-- A quoted text stands for the text if nothing in it has to be escaped. -/
theorem denotes_quotedText {text : String} (h : text.toList.all Toml.standsQuoted = true) :
    Toml.Denotes (quotedText text).toList (.string text) := by
  have hquoted : (quotedText text).toList = '"' :: text.toList ++ ['"'] := by
    simp [quotedText]
  rw [hquoted]
  exact Toml.denotes_quoted h

/-- The text of a single value stands for the value. -/
theorem denotes_valueText {settings : Settings}
    (h : ∀ buffer, settings.capacity buffer ≤ Toml.maxInteger) (item : Item) :
    Toml.Denotes (settings.valueText item).toList (settings.node item) := by
  cases item with
  | capacity buffer => exact denotes_text (h buffer)
  | gasAccounting =>
    refine denotes_quotedText ?_
    cases settings.gasAccounting <;> decide
  | statusPolicy =>
    refine denotes_quotedText ?_
    cases settings.statusPolicy <;> decide
  | strictDestruct =>
    rw [valueText, node]
    cases settings.strictDestruct
    · exact Toml.denotes_false
    · exact Toml.denotes_true

/-- The line of a single value. -/
def assignment {settings : Settings} (h : ∀ buffer, settings.capacity buffer ≤ Toml.maxInteger)
    (item : Item) : Toml.Assignment where
  key := item.name
  text := (settings.valueText item).toList
  node := settings.node item
  isBare := item.isBare_name
  denotes := denotes_valueText h item

/-- The line of a number. -/
def numberAssignment {numbering : Numbering}
    (h : ∀ syscall, numbering.number syscall ≤ Toml.maxInteger) (syscall : Syscall) :
    Toml.Assignment where
  key := syscall.name
  text := (Decimal.text (numbering.number syscall)).toList
  node := .integer (numbering.number syscall)
  isBare := syscall.isBare_name
  denotes := denotes_text (h syscall)

/-- The table of the numbers that are not left out. -/
def table {numbering : Numbering} (h : ∀ syscall, numbering.number syscall ≤ Toml.maxInteger)
    (omission : Omission) : Toml.Table where
  name := "syscalls"
  assignments := (Syscall.all.filter (· ∉ omission.syscalls)).map (numberAssignment h)
  isBare := by decide
  nodup := by
    rw [List.map_map]
    have hall : (Syscall.all.map Syscall.name).Nodup := by decide
    exact hall.sublist (List.filter_sublist.map _)

/-- The lines of the single values that are not left out. -/
def assignments {settings : Settings} (h : ∀ buffer, settings.capacity buffer ≤ Toml.maxInteger)
    (omission : Omission) : List Toml.Assignment :=
  (Item.all.filter (· ∉ omission.items)).map (assignment h)

/-- The table of numbers, unless it is left out. -/
def tables {numbering : Numbering} (h : ∀ syscall, numbering.number syscall ≤ Toml.maxInteger)
    (omission : Omission) : List Toml.Table :=
  if omission.table then [] else [table h omission]

/-- Of a family of entries those are found that are not left out. -/
theorem lookup_filter_append {ι : Type} [DecidableEq ι] {name : ι → String}
    (hname : Function.Injective name) (node : ι → Node) {all : List ι} (hall : ∀ i, i ∈ all)
    (left : Finset ι) (others : Entries) (i : ι) :
    ((all.filter (· ∉ left)).map (fun i => (name i, node i)) ++ others).lookup (name i) =
      if i ∈ left then others.lookup (name i) else some (node i) := by
  have hmem : i ∈ all.filter (· ∉ left) ↔ i ∉ left := by simp [hall i]
  rw [Entries.lookup_map_append hname, if_congr hmem rfl rfl, ite_not]

section Entries

variable {settings : Settings} (hcapacity : ∀ buffer, settings.capacity buffer ≤ Toml.maxInteger)
  (hnumber : ∀ syscall, settings.numbering.number syscall ≤ Toml.maxInteger) (omission : Omission)

/-- A document is the lines of the single values and then the table, as far as they are not left
out. -/
theorem documentWithout_eq :
    settings.documentWithout omission =
      (assignments hcapacity omission).flatMap Toml.Assignment.line ++
        (tables hnumber omission).flatMap Toml.Table.text := by
  rw [documentWithout, assignments, List.flatMap_map, tables]
  congr 1
  cases omission.table with
  | true => rfl
  | false =>
    simp only [Bool.false_eq_true, if_false, List.flatMap_cons, List.flatMap_nil, List.append_nil,
      Toml.Table.text, table, List.flatMap_map]
    rfl

/-- No key stands twice in a document. -/
theorem nodup_keys :
    ((assignments hcapacity omission).map Toml.Assignment.key ++
      (tables hnumber omission).map Toml.Table.name).Nodup := by
  -- All keys that a document can have differ, and so do those that are left.
  have hall : (Item.all.map Item.name ++ ["syscalls"]).Nodup := by decide
  refine hall.sublist (List.Sublist.append ?_ ?_)
  · rw [assignments, List.map_map]
    exact List.filter_sublist.map _
  · rw [tables]
    split
    · exact List.nil_sublist _
    · exact List.Sublist.refl _

/-- A single value that is left out is looked up in what follows the single values. -/
theorem lookup_assignments_append (others : Entries) (item : Item) :
    ((assignments hcapacity omission).map Toml.Assignment.entry ++ others).lookup item.name =
      if item ∈ omission.items then others.lookup item.name else some (settings.node item) := by
  rw [assignments, List.map_map]
  exact lookup_filter_append Item.name_injective settings.node Item.mem_all omission.items others
    item

/-- The table tells the numbers that are not left out. -/
theorem tellsNumbers_table :
    TellsNumbers settings.numbering omission
      ((table hnumber omission).assignments.map Toml.Assignment.entry) := by
  intro syscall
  rw [table, List.map_map]
  have hlookup := lookup_filter_append Syscall.name_injective
    (fun syscall => .integer (settings.numbering.number syscall)) Syscall.mem_all
    omission.syscalls [] syscall
  rw [List.append_nil] at hlookup
  exact hlookup

/-- No single value goes by the name of the table. -/
theorem lookup_tables (item : Item) :
    ((tables hnumber omission).map Toml.Table.entry).lookup item.name = none := by
  rw [tables]
  split
  · rfl
  · rw [Entries.lookup_eq_none_iff]
    show item.name ∉ ["syscalls"]
    rw [List.mem_singleton]
    exact item.name_ne_syscalls

/-- The table is looked up in what follows the single values. -/
theorem lookup_syscalls_append (others : Entries) :
    ((assignments hcapacity omission).map Toml.Assignment.entry ++ others).lookup "syscalls" =
      others.lookup "syscalls" := by
  have hnone : ((assignments hcapacity omission).map Toml.Assignment.entry).lookup "syscalls" =
      none := by
    rw [Entries.lookup_eq_none_iff, assignments, List.map_map, List.map_map]
    intro hmem
    obtain ⟨item, -, hname⟩ := List.mem_map.1 hmem
    exact item.name_ne_syscalls hname
  rw [List.lookup_append, hnone, Option.none_or]

/-- The entries of the document tell what is not left out. -/
theorem tells_entries :
    settings.Tells omission ((assignments hcapacity omission).map Toml.Assignment.entry ++
      (tables hnumber omission).map Toml.Table.entry) where
  items item := by
    rw [lookup_assignments_append, lookup_tables]
  table htable := by
    rw [lookup_syscalls_append, tables, if_pos htable]
    rfl
  numbers htable := by
    refine ⟨.header, _, ?_, tellsNumbers_table hnumber omission⟩
    rw [lookup_syscalls_append, tables, if_neg (by simp [htable])]
    rfl

include hcapacity hnumber in
/-- The document tells what is not left out. -/
theorem document?_documentWithout :
    ∃ entries, Toml.document? (settings.documentWithout omission) = some entries ∧
      settings.Tells omission entries := by
  rw [documentWithout_eq hcapacity hnumber, Toml.document?_tables _ _ (nodup_keys _ _ _)]
  exact ⟨_, rfl, tells_entries hcapacity hnumber omission⟩

end Entries

end Settings

end CallGate
