import CallGate.Proofs.Toml.Value
import CallGate.Toml.Document

/-!
# Documents of assignments and tables

A document that consists of assignments to bare keys and, after them, of tables of such assignments
has the entries that it shows, if no key is given a value twice.

* `Says`: lines that say statements, whatever follows them.
* `Says.document?_eq`: a document of such lines is what its statements make of the empty one.
* `document?_tables`: the entries of assignments and tables.
-/

namespace CallGate.Toml

/-! ## Statements -/

/-- An assignment of a value to a bare key. -/
structure Assignment where
  key : String
  /-- The text of the value. -/
  text : List Char
  node : Node
  isBare : IsBare key
  denotes : Denotes text node

namespace Assignment

/-- The line of an assignment. -/
def line (assignment : Assignment) : List Char :=
  assignment.key.toList ++ ' ' :: '=' :: ' ' :: assignment.text ++ ['\n']

/-- What an assignment says. -/
def statement (assignment : Assignment) : Statement :=
  .assignment [assignment.key] assignment.node

/-- The entry that an assignment makes. -/
def entry (assignment : Assignment) : String × Node :=
  (assignment.key, assignment.node)

end Assignment

/-- The line of an assignment is parsed up to its end. -/
theorem assignment?_line (assignment : Assignment) (count : Nat) (rest : List Char) :
    assignment? (value? count maxDepth) (assignment.line ++ rest) =
      some (([assignment.key], assignment.node), '\n' :: rest) := by
  have hshape : assignment.line ++ rest =
      assignment.key.toList ++ ' ' :: '=' :: ' ' :: (assignment.text ++ '\n' :: rest) := by
    simp [Assignment.line]
  have hskip : skipBlanks (' ' :: '=' :: ' ' :: (assignment.text ++ '\n' :: rest)) =
      '=' :: ' ' :: (assignment.text ++ '\n' :: rest) := rfl
  have hvalue : value? count maxDepth (skipBlanks (' ' :: (assignment.text ++ '\n' :: rest))) =
      some (assignment.node, '\n' :: rest) := assignment.denotes count rest
  rw [hshape, assignment?, maxDepth, path?_bare assignment.isBare rfl hskip (by simp)]
  show (value? count maxDepth (skipBlanks (' ' :: (assignment.text ++ '\n' :: rest))) >>= _) = _
  rw [hvalue]
  rfl

/-- The line of an assignment says the assignment. -/
theorem statement?_line (assignment : Assignment) (count : Nat) (rest : List Char) :
    statement? count (assignment.line ++ rest) = some (assignment.statement, rest) := by
  obtain ⟨first, others, hkey, hfirst⟩ := assignment.isBare.exists_cons
  have hbracket (more : List Char) : assignment.line ++ rest ≠ '[' :: more := by
    rw [Assignment.line, hkey]
    rintro ⟨⟩
    cases hfirst
  rw [statement?, assignment?_line]
  · rfl
  · exact fun more => hbracket _
  · exact hbracket

/-- The header of a table with a bare name. -/
def headerLine (name : String) : List Char :=
  '[' :: name.toList ++ [']', '\n']

/-- The header of a table says that the table begins. -/
theorem statement?_headerLine {name : String} (h : IsBare name) (count : Nat) (rest : List Char) :
    statement? count (headerLine name ++ rest) = some (.table [name], rest) := by
  obtain ⟨first, others, hkey, hfirst⟩ := h.exists_cons
  have hskip : skipBlanks (']' :: '\n' :: rest) = ']' :: '\n' :: rest := rfl
  have hshape : headerLine name ++ rest = '[' :: (name.toList ++ ']' :: '\n' :: rest) := by
    simp [headerLine]
  rw [hshape, statement?]
  · rw [header?, maxDepth, path?_bare h rfl hskip (by simp)]
    rfl
  · -- The name does not start with a second bracket.
    rw [hkey]
    rintro more ⟨⟩
    cases hfirst

/-- A text is lines that say some statements, whatever follows them. -/
def Says (text : List Char) (said : List Statement) : Prop :=
  ∃ lines ≤ text.length, ∀ count more rest,
    statements? count (more + lines) (text ++ rest) = (statements? count more rest).map (said ++ ·)

theorem says_nil : Says [] [] :=
  ⟨0, Nat.le_refl 0, fun count more rest => by simp⟩

/-- Texts one after the other say what the first says and then what the second says. -/
theorem Says.append {first second : List Char} {said after : List Statement}
    (hfirst : Says first said) (hsecond : Says second after) :
    Says (first ++ second) (said ++ after) := by
  obtain ⟨lines, hlines, hsaid⟩ := hfirst
  obtain ⟨others, hothers, hafter⟩ := hsecond
  refine ⟨others + lines, by rw [List.length_append]; omega, fun count more rest => ?_⟩
  rw [← Nat.add_assoc, List.append_assoc, hsaid, hafter, Option.map_map]
  simp [Function.comp_def]

/-- A text of parts says what its parts say. -/
theorem says_flatMap {α : Type} {text : α → List Char} {said : α → List Statement}
    (parts : List α) (h : ∀ part ∈ parts, Says (text part) (said part)) :
    Says (parts.flatMap text) (parts.flatMap said) := by
  induction parts with
  | nil => exact says_nil
  | cons part parts ih =>
    rw [List.forall_mem_cons] at h
    exact h.1.append (ih h.2)

/-- An empty line says nothing. -/
theorem says_blankLine : Says ['\n'] [] := by
  refine ⟨1, Nat.le_refl 1, fun count more rest => ?_⟩
  show statements? count more rest = _
  simp

/-- A statement on a line of its own. -/
theorem says_statement {c : Char} {text : List Char} {statement : Statement}
    (hblank : isBlank c = false) (hline : (c == '#' || c == '\n' || c == '\r') = false)
    (h : ∀ count rest, statement? count (c :: text ++ rest) = some (statement, rest)) :
    Says (c :: text) [statement] := by
  refine ⟨1, Nat.succ_le_succ (Nat.zero_le _), fun count more rest => ?_⟩
  rw [statements?, List.cons_append, skipBlanks_cons hblank]
  simp only [hline, Bool.false_eq_true, if_false]
  rw [← List.cons_append, h]
  show (statements? count more rest).bind (fun statements => some (statement :: statements)) = _
  cases statements? count more rest <;> rfl

/-- An assignment is a statement on a line of its own. -/
theorem says_line (assignment : Assignment) : Says assignment.line [assignment.statement] := by
  obtain ⟨first, others, hkey, hfirst⟩ := assignment.isBare.exists_cons
  have hline : (first == '#' || first == '\n' || first == '\r') = false := by
    rw [← Bool.not_eq_true]
    intro hends
    simp only [Bool.or_eq_true, beq_iff_eq] at hends
    rcases hends with (rfl | rfl) | rfl <;> cases hfirst
  have hshape : assignment.line =
      first :: (others ++ ' ' :: '=' :: ' ' :: assignment.text ++ ['\n']) := by
    rw [Assignment.line, hkey]
    rfl
  rw [hshape]
  refine says_statement (isBlank_of_isBareKey hfirst) hline fun count rest => ?_
  rw [← hshape]
  exact statement?_line assignment count rest

/-- A header is a statement on a line of its own. -/
theorem says_headerLine {name : String} (h : IsBare name) :
    Says (headerLine name) [.table [name]] :=
  says_statement rfl rfl (statement?_headerLine h)

/-- No key starts with a byte order mark. -/
theorem path?_byteOrderMark (rest : List Char) : path? maxDepth ('\ufeff' :: rest) = none := rfl

/-- No line starts with a byte order mark. -/
theorem Says.dropByteOrderMark_eq {text : List Char} {said : List Statement} (h : Says text said) :
    dropByteOrderMark text = text := by
  obtain ⟨lines, -, hsaid⟩ := h
  rw [dropByteOrderMark]
  rintro rest rfl
  have hnone : statements? 0 (lines + 1) ('\ufeff' :: rest) = none := by
    rw [statements?, skipBlanks_cons rfl]
    show (statement? 0 ('\ufeff' :: rest) >>= _) = _
    rw [statement?, assignment?, path?_byteOrderMark]
    · rfl
    all_goals simp
  have hsome := hsaid 0 1 []
  rw [Nat.add_comm, List.append_nil, hnone] at hsome
  cases hsome

/-- A document of lines that say statements is what these make of the empty document. -/
theorem Says.document?_eq {text : List Char} {said : List Statement} (h : Says text said) :
    document? text = (said.foldlM Draft.apply {}).map Draft.entries := by
  obtain ⟨lines, hlines, hsaid⟩ := h
  -- There are no more lines than characters, so one is left for the end of the document.
  obtain ⟨more, hmore⟩ : ∃ more, text.length + 1 = more + 1 + lines :=
    ⟨text.length - lines, by omega⟩
  have hstatements : statements? (text.length + 1) (text.length + 1) text = some said := by
    have hall := hsaid (text.length + 1) (more + 1) []
    rw [List.append_nil, ← hmore] at hall
    rw [hall]
    show some (said ++ []) = some said
    rw [List.append_nil]
  rw [document?, Says.dropByteOrderMark_eq ⟨lines, hlines, hsaid⟩, hstatements]
  show (List.foldlM Draft.apply {} said).bind _ = _
  cases List.foldlM Draft.apply {} said <;> rfl

/-! ## Entries -/

namespace Entries

/-- A key without a value is the key of no entry. -/
theorem lookup_eq_none_iff (entries : Entries) (key : String) :
    entries.lookup key = none ↔ key ∉ entries.map Prod.fst := by
  simp only [List.lookup_eq_none_iff, bne_iff_ne, List.mem_map, not_exists, not_and]
  exact forall₂_congr fun entry _ => ne_comm

/-- Of members of a family with names of their own, those that have entries have their values. -/
theorem lookup_map_append {ι : Type} [DecidableEq ι] {name : ι → String}
    (hname : Function.Injective name) (node : ι → Node) (members : List ι) (others : Entries)
    (i : ι) :
    (members.map (fun i => (name i, node i)) ++ others).lookup (name i) =
      if i ∈ members then some (node i) else others.lookup (name i) := by
  induction members with
  | nil => simp
  | cons j members ih =>
    by_cases h : i = j
    · subst h
      simp
    · have hne : (name i == name j) = false := beq_false_of_ne (hname.ne h)
      rw [List.map_cons, List.cons_append, List.lookup_cons, hne]
      simpa [h] using ih

/-- A key that occurs only once has no value yet, and takes its place behind the others. -/
theorem of_nodup_cons {entries : Entries} (entry : String × Node) {keys : List String}
    (h : (entries.map Prod.fst ++ entry.1 :: keys).Nodup) :
    entries.lookup entry.1 = none ∧ ((entries ++ [entry]).map Prod.fst ++ keys).Nodup := by
  constructor
  · rw [lookup_eq_none_iff]
    intro hmem
    exact (List.nodup_append.1 h).2.2 _ hmem _ List.mem_cons_self rfl
  · simpa using h

/-- To replace a value that is not there changes nothing. -/
theorem replace_of_lookup_eq_none {entries : Entries} {key : String}
    (h : entries.lookup key = none) (node : Node) : entries.replace key node = entries := by
  rw [List.lookup_eq_none_iff] at h
  have hkeep : ∀ entry ∈ entries, (if entry.1 == key then (key, node) else entry) = entry := by
    intro entry hentry
    rw [if_neg]
    rw [beq_iff_eq]
    exact (bne_iff_ne.1 (h entry hentry)).symm
  rw [replace, List.map_congr_left hkeep, List.map_id']

/-- A key without a value gets one behind the others. -/
theorem define_of_lookup_eq_none {entries : Entries} {key : String}
    (h : entries.lookup key = none) (node : Node) :
    define [] key node .header entries = some (entries ++ [(key, node)]) := by
  simp [define, descend, h]

/-- The way to a table that was begun last changes this table alone. -/
theorem descend_last {before : Entries} {name : String} (h : before.lookup name = none)
    (change : Origin → Entries → Option Entries) (inner : Entries) :
    descend false change [name] .header (before ++ [(name, .table .header inner)]) =
      (change .header inner).map fun inner => before ++ [(name, .table .header inner)] := by
  have hlookup : (before ++ [(name, Node.table .header inner)]).lookup name =
      some (.table .header inner) := by
    rw [List.lookup_append, h, Option.none_or, List.lookup_cons_self]
  have hreplace (node : Node) : replace (before ++ [(name, .table .header inner)]) name node =
      before ++ [(name, node)] := by
    have hbefore := replace_of_lookup_eq_none h node
    rw [replace] at hbefore ⊢
    rw [List.map_append, hbefore]
    simp
  rw [descend, hlookup]
  simp only [Bool.false_and, Bool.false_eq_true, if_false, descend, hreplace]
  cases change .header inner <;> rfl

end Entries

/-! ## Tables -/

/-- A table of assignments under a bare name. -/
structure Table where
  name : String
  assignments : List Assignment
  isBare : IsBare name
  /-- No key is assigned twice. -/
  nodup : (assignments.map Assignment.key).Nodup

namespace Table

/-- The lines of a table, after an empty line. -/
def text (table : Table) : List Char :=
  '\n' :: headerLine table.name ++ table.assignments.flatMap Assignment.line

/-- What a table says. -/
def statements (table : Table) : List Statement :=
  .table [table.name] :: table.assignments.map Assignment.statement

/-- The entry that a table makes. -/
def entry (table : Table) : String × Node :=
  (table.name, .table .header (table.assignments.map Assignment.entry))

end Table

/-- Assignments to keys that have no value yet add their entries to the table that they go to, where
`draft` is the document with the entries of that table. -/
theorem foldlM_assignments {draft : Entries → Draft}
    (hstep : ∀ (entries : Entries) (assignment : Assignment),
      entries.lookup assignment.key = none →
        (draft entries).apply assignment.statement = some (draft (entries ++ [assignment.entry])))
    (entries : Entries) (assignments : List Assignment)
    (h : (entries.map Prod.fst ++ assignments.map Assignment.key).Nodup) :
    (assignments.map Assignment.statement).foldlM Draft.apply (draft entries) =
      some (draft (entries ++ assignments.map Assignment.entry)) := by
  induction assignments generalizing entries with
  | nil => simp
  | cons assignment assignments ih =>
    obtain ⟨hlookup, hrest⟩ := Entries.of_nodup_cons assignment.entry h
    rw [List.map_cons, List.foldlM_cons, hstep entries assignment hlookup]
    show List.foldlM Draft.apply (draft (entries ++ [assignment.entry])) _ = _
    rw [ih _ hrest, List.append_assoc]
    rfl

/-- Before any header, an assignment adds its entry to the document. -/
theorem apply_assignment_top (entries : Entries) (assignment : Assignment)
    (h : entries.lookup assignment.key = none) :
    Draft.apply ⟨entries, []⟩ assignment.statement = some ⟨entries ++ [assignment.entry], []⟩ := by
  have hdefine := Entries.define_of_lookup_eq_none h assignment.node
  show (Entries.define [] assignment.key assignment.node .header entries).bind _ = _
  rw [hdefine]
  rfl

/-- Behind a header, an assignment adds its entry to the table of that header. -/
theorem apply_assignment_table {before : Entries} {name : String}
    (hname : before.lookup name = none) (inner : Entries) (assignment : Assignment)
    (h : inner.lookup assignment.key = none) :
    Draft.apply ⟨before ++ [(name, .table .header inner)], [name]⟩ assignment.statement =
      some ⟨before ++ [(name, .table .header (inner ++ [assignment.entry]))], [name]⟩ := by
  have hdefine := Entries.define_of_lookup_eq_none h assignment.node
  show (Entries.descend false _ [name] .header _).bind _ = _
  rw [Entries.descend_last hname]
  show ((Entries.define [] assignment.key assignment.node .header inner).map _).bind _ = _
  rw [hdefine]
  rfl

/-- A header with a new name begins an empty table. -/
theorem apply_table {entries : Entries} {name : String} (h : entries.lookup name = none)
    (header : List String) :
    Draft.apply ⟨entries, header⟩ (.table [name]) =
      some ⟨entries ++ [(name, .table .header [])], [name]⟩ := by
  show (Entries.openTable [] name entries).bind _ = _
  rw [Entries.openTable, Entries.descend, h]
  rfl

/-- The statements of a table add the table to the document. -/
theorem foldlM_table {entries : Entries} {table : Table} (h : entries.lookup table.name = none)
    (header : List String) :
    table.statements.foldlM Draft.apply ⟨entries, header⟩ =
      some ⟨entries ++ [table.entry], [table.name]⟩ := by
  have hinner := foldlM_assignments (apply_assignment_table h) [] table.assignments table.nodup
  rw [Table.statements, List.foldlM_cons, apply_table h]
  exact hinner

/-- Tables whose names have no value yet add their entries to the document. -/
theorem foldlM_tables (tables : List Table) (entries : Entries) (header : List String)
    (h : (entries.map Prod.fst ++ tables.map Table.name).Nodup) :
    ((tables.flatMap Table.statements).foldlM Draft.apply ⟨entries, header⟩).map Draft.entries =
      some (entries ++ tables.map Table.entry) := by
  induction tables generalizing entries header with
  | nil => simp
  | cons table tables ih =>
    obtain ⟨hlookup, hrest⟩ := Entries.of_nodup_cons table.entry h
    rw [List.flatMap_cons, List.foldlM_append, foldlM_table hlookup]
    show (List.foldlM Draft.apply ⟨entries ++ [table.entry], _⟩ _).map _ = _
    rw [ih _ _ hrest, List.append_assoc]
    rfl

/-- Lines of assignments say the assignments. -/
theorem says_lines (assignments : List Assignment) :
    Says (assignments.flatMap Assignment.line) (assignments.map Assignment.statement) := by
  rw [List.map_eq_flatMap]
  exact says_flatMap assignments fun assignment _ => says_line assignment

/-- The text of a table says its header and its assignments. -/
theorem says_table (table : Table) : Says table.text table.statements :=
  (says_blankLine.append (says_headerLine table.isBare)).append (says_lines table.assignments)

/-- A document of assignments and of tables after them has the entries that it shows, if no key is
given a value twice. -/
theorem document?_tables (top : List Assignment) (tables : List Table)
    (h : (top.map Assignment.key ++ tables.map Table.name).Nodup) :
    document? (top.flatMap Assignment.line ++ tables.flatMap Table.text) =
      some (top.map Assignment.entry ++ tables.map Table.entry) := by
  have hsaid : Says (top.flatMap Assignment.line ++ tables.flatMap Table.text)
      (top.map Assignment.statement ++ tables.flatMap Table.statements) :=
    (says_lines top).append (says_flatMap tables fun table _ => says_table table)
  have htop : (top.map Assignment.statement).foldlM Draft.apply ⟨[], []⟩ =
      some ⟨top.map Assignment.entry, []⟩ :=
    foldlM_assignments apply_assignment_top [] top (List.nodup_append.1 h).1
  have hkeys : ((top.map Assignment.entry).map Prod.fst ++ tables.map Table.name).Nodup := by
    rw [List.map_map]
    exact h
  rw [hsaid.document?_eq, List.foldlM_append, htop]
  exact foldlM_tables tables _ [] hkeys

end CallGate.Toml
