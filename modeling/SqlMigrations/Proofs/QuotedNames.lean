import SqlMigrations.Proofs.ReportCalls
import SqlMigrations.Proofs.TrackingStatements

/-!
# Names in statements

A statement on a tracking table is a fixed text with a few names in quotes. A name that holds no
quote ends where its quotes end, so the quotes cut a statement into the same texts for every table,
and the name of the table can be read off it. File names are bound and stand in no statement.
-/

namespace SqlMigrations.Proofs

variable {σ : Type}

def IsLetter (c : Char) : Prop := 'A' ≤ c ∧ c ≤ 'Z' ∨ 'a' ≤ c ∧ c ≤ 'z'

def IsDigit (c : Char) : Prop := '0' ≤ c ∧ c ≤ '9'

/-- The texts of the form `[A-Za-z_][A-Za-z0-9_]*`. -/
def IsIdentifier (text : String) : Prop :=
  ∃ c cs, text.toList = c :: cs ∧ (IsLetter c ∨ c = '_') ∧
    ∀ d ∈ cs, IsLetter d ∨ IsDigit d ∨ d = '_'

/-- What stands in quotes in a statement: the name of the table or of its sequence as an identifier,
or the name of the sequence as a text. -/
inductive QuotedName where
  | table
  | sequence
  | sequenceText
  deriving DecidableEq

namespace QuotedName

/-- The mark at both ends of the name. -/
def mark : QuotedName → Char
  | .table | .sequence => '"'
  | .sequenceText => '\''

/-- The name itself, for a table of some name. -/
def name (table : String) : QuotedName → String
  | .table => table
  | .sequence | .sequenceText => table ++ "_id_seq"

end QuotedName

/-- A text with names in quotes: what stands before the first one, and each name with what stands
between it and the next one. -/
structure Pattern where
  opening : String
  names : List (QuotedName × String)

namespace Pattern

/-- The text for a table of some name. -/
def fill (p : Pattern) (table : String) : List Char :=
  p.opening.toList ++ p.names.flatMap fun (quoted, following) =>
    quoted.mark :: ((quoted.name table).toList ++ quoted.mark :: following.toList)

/-- The pieces for a table of some name: the fixed texts, and between them the names. -/
def pieces (p : Pattern) (table : String) : List (List Char) :=
  p.opening.toList :: p.names.flatMap fun (quoted, following) =>
    [(quoted.name table).toList, following.toList]

end Pattern

/-- The pattern of each kind of statement. -/
def patternOf : Statement → Pattern
  | .create => ⟨"CREATE SEQUENCE IF NOT EXISTS ", [
      (.sequence, Statement.lines [";", "             CREATE TABLE IF NOT EXISTS "]),
      (.table, Statement.lines [
        " (", "                 id         BIGINT PRIMARY KEY DEFAULT nextval("]),
      (.sequenceText, Statement.lines [
        "),", "                 filename   VARCHAR NOT NULL UNIQUE,",
        "                 applied_at TIMESTAMPTZ NOT NULL DEFAULT current_timestamp",
        "             );"])]⟩
  | .check => ⟨"SELECT COUNT(*) FROM ", [(.table, " WHERE filename = ?")]⟩
  | .record => ⟨"INSERT INTO ", [(.table, " (filename) VALUES (?)")]⟩
  | .readAll => ⟨"SELECT filename, applied_at FROM ", [(.table, " ORDER BY id")]⟩

def isQuote (c : Char) : Bool := c == '"' || c == '\''

lemma isAlpha_iff {c : Char} : c.isAlpha = true ↔ IsLetter c := by
  have halpha : c.isAlpha = (decide (c.val ≥ 'A'.val ∧ c.val ≤ 'Z'.val) ||
      (decide (c.val ≥ 'a'.val) && decide (c.val ≤ 'z'.val))) := rfl
  simp [halpha, IsLetter, Char.le_def]

lemma isIdentifierStart_iff {c : Char} : isIdentifierStart c = true ↔ IsLetter c ∨ c = '_' := by
  simp [isIdentifierStart, isAlpha_iff]

lemma isIdentifierRest_iff {c : Char} :
    isIdentifierRest c = true ↔ IsLetter c ∨ IsDigit c ∨ c = '_' := by
  simp [isIdentifierRest, Char.isAlphanum, isAlpha_iff, Char.isDigit, IsDigit, Char.le_def,
    or_assoc]

lemma isPlainIdentifier_iff {text : String} :
    isPlainIdentifier text = true ↔ IsIdentifier text := by
  unfold isPlainIdentifier IsIdentifier
  cases text.toList with
  | nil => simp
  | cons c cs =>
    simp [isIdentifierStart_iff, isIdentifierRest_iff]

lemma parse_of_plain {text : String} (h : isPlainIdentifier text = true) :
    TableName.parse text = .ok ⟨text, h⟩ := by
  simp [TableName.parse, TableName.ofText?, h]

lemma parse_of_not_plain {text : String} (h : ¬ isPlainIdentifier text = true) :
    TableName.parse text = .error (.invalidTableName text) := by
  simp [TableName.parse, TableName.ofText?, h]

section Cuts

variable (table : TableName)

lemma isQuote_eq_false {c : Char} (h : isIdentifierRest c = true) : isQuote c = false := by
  by_contra hquote
  rw [Bool.not_eq_false] at hquote
  simp only [isQuote, Bool.or_eq_true, beq_iff_eq] at hquote
  rcases hquote with rfl | rfl <;> exact absurd h (by decide)

lemma unquoted_of_any {text : String} (h : text.toList.any isQuote = false) :
    ∀ c ∈ text.toList, isQuote c = false := by
  simpa using h

lemma name_unquoted (quoted : QuotedName) :
    ∀ c ∈ (quoted.name table.text).toList, isQuote c = false := by
  have htable : ∀ c ∈ table.text.toList, isQuote c = false := fun c hc =>
    isQuote_eq_false (isIdentifierRest_of_mem hc)
  have hsuffix : ∀ c ∈ "_id_seq".toList, isQuote c = false := unquoted_of_any (by decide)
  cases quoted with
  | table => exact htable
  | sequence | sequenceText =>
    intro c hc
    rw [QuotedName.name, String.toList_append] at hc
    rcases List.mem_append.mp hc with hc | hc
    · exact htable c hc
    · exact hsuffix c hc

lemma isQuote_mark (quoted : QuotedName) : isQuote quoted.mark = true := by
  cases quoted <;> rfl

/-- A pattern whose fixed texts hold no quote is cut at its names. -/
lemma splitOnP_fill {p : Pattern} (hopening : ∀ c ∈ p.opening.toList, isQuote c = false)
    (hnames : ∀ entry ∈ p.names, ∀ c ∈ entry.2.toList, isQuote c = false) :
    (p.fill table.text).splitOnP isQuote = p.pieces table.text := by
  obtain ⟨opening, names⟩ := p
  unfold Pattern.fill Pattern.pieces
  dsimp only at hopening hnames ⊢
  induction names generalizing opening with
  | nil => simp [List.splitOnP_eq_singleton hopening]
  | cons entry names ih =>
    obtain ⟨quoted, following⟩ := entry
    have hrest := ih following (hnames (quoted, following) List.mem_cons_self) fun entry hentry =>
      hnames entry (List.mem_cons_of_mem _ hentry)
    rw [List.flatMap_cons, List.flatMap_cons, List.cons_append, List.append_assoc, List.cons_append,
      List.splitOnP_append_cons_of_forall_mem hopening _ (isQuote_mark quoted),
      List.splitOnP_append_cons_of_forall_mem (name_unquoted table quoted) _ (isQuote_mark quoted),
      hrest]
    rfl

lemma create_eq_fill :
    (Statement.create.text table).toList = (patternOf .create).fill table.text := by
  -- Each line is split where a name begins or ends.
  have h₁ : "CREATE SEQUENCE IF NOT EXISTS \"" = "CREATE SEQUENCE IF NOT EXISTS " ++ "\"" := rfl
  have h₂ : "_id_seq\";" = "_id_seq" ++ "\"" ++ ";" := rfl
  have h₃ : "             CREATE TABLE IF NOT EXISTS \"" =
    "             CREATE TABLE IF NOT EXISTS " ++ "\"" := rfl
  have h₄ : "\" (" = "\"" ++ " (" := rfl
  have h₅ : "                 id         BIGINT PRIMARY KEY DEFAULT nextval('" =
    "                 id         BIGINT PRIMARY KEY DEFAULT nextval(" ++ "'" := rfl
  have h₆ : "_id_seq')," = "_id_seq" ++ "'" ++ ")," := rfl
  have hdouble : "\"".toList = ['"'] := rfl
  have hsingle : "'".toList = ['\''] := rfl
  change (Statement.lines ["CREATE SEQUENCE IF NOT EXISTS \"" ++ table.text ++ "_id_seq\";",
    "             CREATE TABLE IF NOT EXISTS \"" ++ table.text ++ "\" (",
    "                 id         BIGINT PRIMARY KEY DEFAULT nextval('" ++ table.text ++
      "_id_seq'),", _, _, _]).toList = _
  rw [h₁, h₂, h₃, h₄, h₅, h₆]
  simp only [patternOf, Pattern.fill, QuotedName.name, QuotedName.mark, Statement.lines,
    String.toList_intercalate, List.intercalate, List.map_cons, List.map_nil, List.intersperse,
    List.flatten_cons, List.flatten_nil, List.flatMap_cons, List.flatMap_nil, List.cons_append,
    List.nil_append, List.append_nil, String.toList_append, List.append_assoc, hdouble, hsingle]

lemma text_eq_fill (kind : Statement) :
    (kind.text table).toList = (patternOf kind).fill table.text := by
  have hfill : ∀ opening following : String,
      Pattern.fill ⟨opening, [(.table, following)]⟩ table.text =
        opening.toList ++ '"' :: (table.text.toList ++ '"' :: following.toList) := by
    simp [Pattern.fill, QuotedName.name, QuotedName.mark]
  cases kind with
  | create => exact create_eq_fill table
  | check => exact (check_toList table).trans (hfill _ _).symm
  | record => exact (record_toList table).trans (hfill _ _).symm
  | readAll => exact (readAll_toList table).trans (hfill _ _).symm

lemma splitOnP_text (kind : Statement) :
    (kind.text table).toList.splitOnP isQuote = (patternOf kind).pieces table.text := by
  rw [text_eq_fill]
  apply splitOnP_fill
  · exact unquoted_of_any (by cases kind <;> decide +kernel)
  · have hnames : ∀ entry ∈ (patternOf kind).names, entry.2.toList.any isQuote = false := by
      cases kind <;> decide +kernel
    exact fun entry hentry => unquoted_of_any (hnames entry hentry)

end Cuts

/-! ### Reading a statement back -/

section Reading

variable {table table' : TableName} {kind kind' : Statement}

lemma eq_of_opening (h : (patternOf kind).opening = (patternOf kind').opening) : kind = kind' := by
  revert h
  cases kind <;> cases kind' <;> decide

lemma eq_of_pieces {p : Pattern} {name name' : String} (hnames : p.names ≠ [])
    (h : p.pieces name = p.pieces name') : name = name' := by
  obtain ⟨opening, names⟩ := p
  cases names with
  | nil => exact absurd rfl hnames
  | cons entry names =>
    obtain ⟨quoted, following⟩ := entry
    simp only [Pattern.pieces, List.flatMap_cons, List.cons_append, List.cons.injEq,
      String.toList_inj] at h
    cases quoted with
    | table => exact h.2.1
    | sequence | sequenceText => exact (String.append_left_inj "_id_seq").mp h.2.1

lemma text_injective (h : kind.text table = kind'.text table') : kind = kind' ∧ table = table' := by
  have hpieces := splitOnP_text table kind
  rw [h, splitOnP_text] at hpieces
  obtain rfl : kind = kind' := by
    apply eq_of_opening
    exact String.toList_inj.mp (List.cons.inj hpieces).1.symm
  have hname : table.text = table'.text := by
    apply eq_of_pieces _ hpieces.symm
    cases kind <;> simp [patternOf]
  obtain ⟨text, hplain⟩ := table
  obtain ⟨text', hplain'⟩ := table'
  obtain rfl : text = text' := hname
  exact ⟨rfl, rfl⟩

end Reading

section Calls

variable (table : TableName) (filename : String) (db : Database σ) (s : σ)

lemma ensure_calls : (observe db (ExceptT.run table.ensure) s).log.map Exchange.call =
    [createCall table] := by
  obtain ⟨reply, before, after, hlog, -⟩ := yields_ask.mp (observe_yields db _ s)
  rw [TableName.ensure, hlog]
  rfl

lemma isApplied_calls : (observe db (ExceptT.run (table.isApplied filename)) s).log.map
    Exchange.call = [checkCall table filename] := by
  obtain ⟨reply, before, after, hlog, -⟩ :=
    isApplied_yields (observe_yields db (ExceptT.run (table.isApplied filename)) s)
  rw [hlog]
  rfl

lemma record_calls : (observe db (ExceptT.run (table.record filename)) s).log.map
    Exchange.call = [recordCall table filename] := by
  obtain ⟨reply, before, after, hlog, -⟩ :=
    record_yields (observe_yields db (ExceptT.run (table.record filename)) s)
  rw [hlog]
  rfl

lemma records_calls : (observe db (ExceptT.run table.records) s).log.map Exchange.call =
    [readAllCall table] := by
  obtain ⟨reply, before, after, hlog, -⟩ :=
    records_yields (observe_yields db (ExceptT.run table.records) s)
  rw [hlog]
  rfl

end Calls

/-- No name alters a statement. Tables are named by identifiers and by nothing else; a file name is
the one value that is bound, as it is, and has no part in the text; a statement is the same text for
every table but for the names in quotes, at which its quotes cut it; and a statement is of one kind
and about one table only. -/
theorem names_never_alter_statements :
    (∀ text, (IsIdentifier text →
        ∃ table, TableName.parse text = .ok table ∧ table.text = text) ∧
      (¬ IsIdentifier text → TableName.parse text = .error (.invalidTableName text))) ∧
    (∀ (σ : Type) (db : Database σ) (s : σ) (table : TableName) (filename : String),
      (observe db (ExceptT.run (table.isApplied filename)) s).log.map Exchange.call =
        [.queryRow (Statement.check.text table) [.text filename]] ∧
      (observe db (ExceptT.run (table.record filename)) s).log.map Exchange.call =
        [.execute (Statement.record.text table) [.text filename]] ∧
      (observe db (ExceptT.run table.records) s).log.map Exchange.call =
        [.query (Statement.readAll.text table) []] ∧
      (observe db (ExceptT.run table.ensure) s).log.map Exchange.call =
        [.executeBatch (Statement.create.text table)]) ∧
    (∀ table kind, (Statement.text table kind).toList = (patternOf kind).fill table.text ∧
      (Statement.text table kind).toList.splitOnP isQuote = (patternOf kind).pieces table.text) ∧
    ∀ table table' kind kind', Statement.text table kind = Statement.text table' kind' →
      kind = kind' ∧ table = table' := by
  refine ⟨fun text => ⟨fun h => ?_, fun h => ?_⟩, fun σ db s table filename => ?_,
    fun table kind => ⟨text_eq_fill table kind, splitOnP_text table kind⟩,
    fun _ _ _ _ => text_injective⟩
  · exact ⟨_, parse_of_plain (isPlainIdentifier_iff.mpr h), rfl⟩
  · exact parse_of_not_plain fun hplain => h (isPlainIdentifier_iff.mp hplain)
  · exact ⟨isApplied_calls table filename db s, record_calls table filename db s,
      records_calls table db s, ensure_calls table db s⟩

/-- A table that has the name of the sequence of another one. -/
theorem names_never_alter_statements_sequence : ∃ table table', TableName.parse "t" = .ok table ∧
    TableName.parse "t_id_seq" = .ok table' ∧
    Statement.create.text table ≠ Statement.create.text table' ∧
    TableName.parse "t\"; --" = .error (.invalidTableName "t\"; --") := by
  obtain ⟨hparse, -, -, hinjective⟩ := names_never_alter_statements
  have hidentifier : ∀ text, isPlainIdentifier text = true → IsIdentifier text := fun _ =>
    isPlainIdentifier_iff.mp
  obtain ⟨table, htable, htext⟩ := (hparse "t").1 (hidentifier _ (by decide +kernel))
  obtain ⟨table', htable', htext'⟩ := (hparse "t_id_seq").1 (hidentifier _ (by decide +kernel))
  refine ⟨table, table', htable, htable', fun hsame => ?_, (hparse _).2 fun h => ?_⟩
  · have hname := congrArg TableName.text (hinjective _ _ _ _ hsame).2
    rw [htext, htext'] at hname
    exact absurd hname (by decide)
  · exact absurd (isPlainIdentifier_iff.mpr h) (by decide +kernel)

end SqlMigrations.Proofs
