import SqlMigrations.Database.Sql
import SqlMigrations.Proofs.Cuts
import SqlMigrations.Statement

/-!
# How statements are read

A store reads the statements on a tracking table as what they are meant for, and about that table.
A table name is a plain identifier, so the quotes around it end where the name ends.
-/

namespace SqlMigrations.Proofs

/-- A search for a phrase passes a word that does not end with the first word of the phrase. -/
lemma afterFirst?_word {first word : List Char} (tail cs : List Char) (hne : first ≠ [])
    (hfirst : ' ' ∉ first) (hword : ' ' ∉ word) (hends : ¬ first <:+ word) :
    Text.afterFirst? (first ++ ' ' :: tail) (word ++ ' ' :: cs) =
      Text.afterFirst? (first ++ ' ' :: tail) cs := by
  have hpass : ∀ {w : List Char}, ' ' ∉ w → w ≠ first →
      Text.dropBeginning? (first ++ ' ' :: tail) (w ++ ' ' :: cs) = none := by
    intro w hw hwne
    rw [Option.eq_none_iff_forall_ne_some]
    intro rest h
    have hsplit := splitFirst?_append cs hw
    rw [dropBeginning?_eq_some.mp h, List.append_assoc, List.cons_append,
      splitFirst?_append _ hfirst] at hsplit
    exact hwne (congrArg Prod.fst (Option.some.inj hsplit)).symm
  -- The phrase starts at no letter of the word: its first word would be an ending of it.
  induction word with
  | nil =>
    have hnone := hpass List.not_mem_nil hne.symm
    rw [List.nil_append] at hnone ⊢
    rw [Text.afterFirst?, hnone]
  | cons c word ih =>
    have hnone := hpass hword fun h => hends (h ▸ List.suffix_refl _)
    rw [List.cons_append] at hnone ⊢
    rw [Text.afterFirst?, hnone]
    exact ih (fun h => hword (List.mem_cons_of_mem c h))
      fun h => hends (h.trans (List.suffix_cons c word))

lemma head?_pieces_ne {sep c d : Char} {cs : List Char} (hsep : c ≠ sep) (hd : c ≠ d) :
    (Text.pieces sep (c :: cs)).head? ≠ some [d] := by
  rw [Text.pieces, if_neg hsep]
  cases Text.pieces sep cs <;> simp [hd]

lemma isIdentifierRest_of_mem {table : TableName} {c : Char} (hc : c ∈ table.text.toList) :
    isIdentifierRest c = true := by
  have h := table.isPlain
  unfold isPlainIdentifier at h
  cases hcs : table.text.toList with
  | nil => simp [hcs] at hc
  | cons d cs =>
    simp only [hcs, Bool.and_eq_true, List.all_eq_true] at h
    obtain ⟨hstart, hrest⟩ := h
    rw [hcs] at hc
    rcases List.mem_cons.mp hc with rfl | hc
    · unfold isIdentifierStart at hstart
      unfold isIdentifierRest Char.isAlphanum
      cases halpha : c.isAlpha with
      | true => rfl
      | false =>
        rw [halpha, Bool.false_or, beq_iff_eq] at hstart
        simp [hstart]
    · exact hrest c hc

lemma notMem_of_not_rest (table : TableName) {c : Char} (hc : isIdentifierRest c = false) :
    c ∉ table.text.toList := by
  intro h
  rw [isIdentifierRest_of_mem h] at hc
  cases hc

lemma toList_ne_nil (table : TableName) : table.text.toList ≠ [] := by
  intro h
  have hplain := table.isPlain
  simp [isPlainIdentifier, h] at hplain

lemma name?_quoted (table : TableName) (rest : List Char) :
    Sql.name? ('"' :: (table.text.toList ++ '"' :: rest)) = some (table.text, rest) := by
  rw [Sql.name?, splitFirst?_append rest (notMem_of_not_rest table (by decide))]
  cases hcs : table.text.toList with
  | nil => exact absurd hcs (toList_ne_nil table)
  | cons c cs => simp [← hcs]

/-- A statement that names a table in quotes between fixed texts. -/
lemma tableWithin?_quoted {opening closing sql : String} {table : TableName}
    (h : sql.toList = opening.toList ++ '"' :: (table.text.toList ++ '"' :: closing.toList)) :
    Sql.tableWithin? opening closing sql = some table.text := by
  simp [Sql.tableWithin?, h, dropBeginning?_append, name?_quoted]

lemma parameterCount?_eq_none {c : Char} {cs : List Char} (hcomma : c ≠ ',') (hmark : c ≠ '?') :
    Sql.parameterCount? ("SELECT ".toList ++ c :: cs) = none := by
  rw [Sql.parameterCount?, dropBeginning?_append]
  simp [head?_pieces_ne hcomma hmark]

section Statements

variable (table : TableName)

lemma check_toList : (Statement.check.text table).toList =
    "SELECT COUNT(*) FROM ".toList ++
      '"' :: (table.text.toList ++ '"' :: " WHERE filename = ?".toList) := by
  change ("SELECT COUNT(*) FROM \"" ++ table.text ++ "\" WHERE filename = ?").toList = _
  simp

lemma record_toList : (Statement.record.text table).toList =
    "INSERT INTO ".toList ++
      '"' :: (table.text.toList ++ '"' :: " (filename) VALUES (?)".toList) := by
  change ("INSERT INTO \"" ++ table.text ++ "\" (filename) VALUES (?)").toList = _
  simp

lemma readAll_toList : (Statement.readAll.text table).toList =
    "SELECT filename, applied_at FROM ".toList ++
      '"' :: (table.text.toList ++ '"' :: " ORDER BY id".toList) := by
  change ("SELECT filename, applied_at FROM \"" ++ table.text ++ "\" ORDER BY id").toList = _
  simp

theorem query?_check : Sql.query? (Statement.check.text table) = some (.countOf table.text) := by
  have hnone : Sql.parameterCount? (Statement.check.text table).toList = none := by
    rw [check_toList]
    exact parameterCount?_eq_none (c := 'C') (by decide) (by decide)
  unfold Sql.query?
  rw [hnone, tableWithin?_quoted (check_toList table)]

theorem query?_readAll :
    Sql.query? (Statement.readAll.text table) = some (.recordsOf table.text) := by
  have hnone : Sql.parameterCount? (Statement.readAll.text table).toList = none := by
    rw [readAll_toList]
    exact parameterCount?_eq_none (c := 'f') (by decide) (by decide)
  have hcount : Sql.tableWithin? "SELECT COUNT(*) FROM " " WHERE filename = ?"
      (Statement.readAll.text table) = none := by
    unfold Sql.tableWithin?
    rw [readAll_toList]
    rfl
  unfold Sql.query?
  rw [hnone, hcount, tableWithin?_quoted (readAll_toList table)]

theorem insertion?_record : Sql.insertion? (Statement.record.text table) = some table.text :=
  tableWithin?_quoted (record_toList table)

lemma create_toList : ∃ rest, (Statement.create.text table).toList =
    "CREATE SEQUENCE IF NOT EXISTS \"".toList ++ (table.text.toList ++
      ("_id_seq\";\n             CREATE TABLE IF NOT EXISTS \"".toList ++
        (table.text.toList ++ '"' :: rest))) := by
  change ∃ rest, (String.intercalate "\n" (("CREATE SEQUENCE IF NOT EXISTS \"" ++ table.text ++
    "_id_seq\";") :: ("             CREATE TABLE IF NOT EXISTS \"" ++ table.text ++ "\" (") ::
      _)).toList = _
  rw [String.toList_intercalate]
  exact ⟨_, by simp [List.intercalate]; rfl⟩

lemma afterFirst?_create : ∃ rest,
    Text.afterFirst? "CREATE TABLE IF NOT EXISTS".toList (Statement.create.text table).toList =
      some (' ' :: '"' :: (table.text.toList ++ '"' :: rest)) := by
  obtain ⟨rest, hrest⟩ := create_toList table
  have htext : (Statement.create.text table).toList = "CREATE SEQUENCE IF NOT EXISTS ".toList ++
      (('"' :: (table.text.toList ++ "_id_seq\";\n".toList)) ++
        ' ' :: ("            CREATE TABLE IF NOT EXISTS".toList ++
          ' ' :: '"' :: (table.text.toList ++ '"' :: rest))) := by
    rw [hrest]
    simp
  have hfragment : "CREATE TABLE IF NOT EXISTS".toList =
      "CREATE".toList ++ ' ' :: "TABLE IF NOT EXISTS".toList := by simp
  have hopening : ∀ cs, Text.afterFirst? "CREATE TABLE IF NOT EXISTS".toList
      ("CREATE SEQUENCE IF NOT EXISTS ".toList ++ cs) =
        Text.afterFirst? "CREATE TABLE IF NOT EXISTS".toList cs := by
    simp [Text.afterFirst?, Text.dropBeginning?]
  have hclosing : ∀ cs, Text.afterFirst? "CREATE TABLE IF NOT EXISTS".toList
      ("            CREATE TABLE IF NOT EXISTS".toList ++ cs) = some cs := by
    simp [Text.afterFirst?, Text.dropBeginning?]
  have hword : ' ' ∉ '"' :: (table.text.toList ++ "_id_seq\";\n".toList) := by
    simp [notMem_of_not_rest table (c := ' ') (by decide)]
  have hends : ¬ "CREATE".toList <:+ '"' :: (table.text.toList ++ "_id_seq\";\n".toList) := by
    rintro ⟨cs, hcs⟩
    have hlast := congrArg List.getLast? hcs
    rw [← List.cons_append, List.getLast?_append, List.getLast?_append] at hlast
    simp at hlast
  rw [htext, hopening, hfragment, afterFirst?_word _ _ (by simp) (by simp) hword hends, ← hfragment,
    hclosing]
  exact ⟨rest, rfl⟩

/-- The creation of a tracking table is read as such, not as commands of a batch. -/
theorem createdTracking?_create :
    Sql.createdTracking? (Statement.create.text table) = some (some table.text) := by
  obtain ⟨rest, hrest⟩ := afterFirst?_create table
  have hopening : "CREATE SEQUENCE IF NOT EXISTS \"".toList.isPrefixOf
      (Statement.create.text table).toList = true := by
    rw [List.isPrefixOf_iff_prefix, (create_toList table).choose_spec]
    exact List.prefix_append _ _
  unfold Sql.createdTracking?
  generalize (Statement.create.text table).toList = cs at hrest hopening
  have hblank : (' ' :: '"' :: (table.text.toList ++ '"' :: rest)).dropWhile Text.isBlank =
      '"' :: (table.text.toList ++ '"' :: rest) := by
    simp [List.dropWhile, Text.isBlank]
  rw [if_pos hopening, hrest]
  simp [hblank, name?_quoted]

end Statements

end SqlMigrations.Proofs
