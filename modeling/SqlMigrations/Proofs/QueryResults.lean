import SqlMigrations.Proofs.BackendCalls
import SqlMigrations.Proofs.TickCounts

/-!
# Results of queries

A row is decoded whole or not at all: an integer keeps its number, whatever its type, and the first
value that has no place among the SQL values is the one that the error describes. A query decodes
every row in this way, row after row, and the query for a single row only the first one; both step
through all rows before they decode any.
-/

namespace SqlMigrations.Proofs

/-- The SQL value that a raw value is decoded to. -/
inductive Decodes : RawValue → SqlValue → Prop
  | null : Decodes .null .null
  | boolean (value : Bool) : Decodes (.boolean value) (.bool value)
  | text (value : String) : Decodes (.text value) (.text value)
  | integer {type : IntegerType} (word : Int64) (narrow : type ≠ .uHugeInt) :
      Decodes (.integer type word.toInt) (.int word)
  | timestamp {unit : TimeUnit} {ticks : Int64} {t : Instant}
      (same : unixNanos t = ticks.toInt * unit.nanosPerTick) :
      Decodes (.timestamp unit ticks) (.timestamp t)

/-- The raw values with a place among the SQL values: integers of all types but the widest one have
it if a word of 64 bits holds them, and timestamps if they lie in the calendar. -/
def Fits : RawValue → Prop
  | .null | .boolean _ | .text _ => True
  | .integer type n => type ≠ .uHugeInt ∧ -2 ^ 63 ≤ n ∧ n < 2 ^ 63
  | .timestamp unit ticks => InCalendar (ticks.toInt / unit.perSecond)
  | _ => False

/-- The error about the first of some values that does not fit. -/
def FirstUnfit (values : List RawValue) (e : DatabaseError) : Prop :=
  ∃ before raw after, values = before ++ raw :: after ∧ (∀ value ∈ before, Fits value) ∧
    ¬ Fits raw ∧ e = .unsupported raw

/-- The text that describes a value without a place: its number or its ticks, else all of it. -/
inductive Describes : RawValue → String → Prop
  | integer {type : IntegerType} (n : Int) (narrow : type ≠ .uHugeInt) :
      Describes (.integer type n) ("integer " ++ toString n ++ " does not fit in i64")
  | timestamp (unit : TimeUnit) (ticks : Int64) :
      Describes (.timestamp unit ticks) ("timestamp " ++ toString ticks ++ " out of range")
  | whole {raw : RawValue} (notInteger : ∀ type n, raw = .integer type n → type = .uHugeInt)
      (notTimestamp : ∀ unit ticks, raw ≠ .timestamp unit ticks) : Describes raw raw.describe

section Values

variable {raw : RawValue} {value : SqlValue} {e : DatabaseError} {type : IntegerType} {n : Int}

lemma ofInteger?_eq_some : SqlValue.ofInteger? type n = some value ↔
    type ≠ .uHugeInt ∧ ∃ word : Int64, word.toInt = n ∧ value = .int word := by
  unfold SqlValue.ofInteger?
  constructor
  · intro h
    split at h
    · rename_i hrange
      obtain ⟨hnarrow, hlow, hhigh⟩ := hrange
      exact ⟨hnarrow, Int64.ofInt n, Int64.toInt_ofInt_of_le hlow hhigh, (Option.some.inj h).symm⟩
    · cases h
  · rintro ⟨hnarrow, word, rfl, rfl⟩
    rw [if_pos ⟨hnarrow, word.le_toInt, word.toInt_lt⟩, Int64.ofInt_toInt]

lemma ofInteger?_eq_none : SqlValue.ofInteger? type n = none ↔ ¬ Fits (.integer type n) := by
  have hbounds : IntegerType.bigInt.bounds = (-2 ^ 63, 2 ^ 63) := by decide
  unfold SqlValue.ofInteger? Fits
  rw [hbounds]
  simp

lemma ofRaw_integer_eq_ok : SqlValue.ofRaw (.integer type n) = .ok value ↔
    SqlValue.ofInteger? type n = some value := by
  cases hvalue : SqlValue.ofInteger? type n <;> simp [SqlValue.ofRaw, hvalue]

lemma ofRaw_eq_ok : SqlValue.ofRaw raw = .ok value ↔ Decodes raw value := by
  constructor
  · fun_cases SqlValue.ofRaw raw with
    | case1 | case2 | case3 =>
      rintro ⟨⟩
      constructor
    | case4 type n =>
      intro h
      obtain ⟨hnarrow, word, rfl, rfl⟩ := ofInteger?_eq_some.mp (ofRaw_integer_eq_ok.mp h)
      exact .integer word hnarrow
    | case5 unit ticks t ht =>
      rintro ⟨⟩
      exact .timestamp (instant?_eq_some.mp ht)
    | case6 | case7 => exact nofun
  · intro h
    cases h with
    | null | boolean | text => rfl
    | integer word hnarrow =>
      exact ofRaw_integer_eq_ok.mpr (ofInteger?_eq_some.mpr ⟨hnarrow, word, rfl, rfl⟩)
    | timestamp same => exact ofRaw_timestamp.mpr same

lemma ofRaw_eq_error : SqlValue.ofRaw raw = .error e ↔ ¬ Fits raw ∧ e = .unsupported raw := by
  fun_cases SqlValue.ofRaw raw with
  | case1 | case2 | case3 => simp [Fits]
  | case4 type n =>
    rw [← ofInteger?_eq_none]
    cases hvalue : SqlValue.ofInteger? type n <;> simp [eq_comm]
  | case5 unit ticks t ht =>
    have hin : InCalendar (ticks.toInt / unit.perSecond) := by
      by_contra hout
      rw [instant?_eq_none.mpr hout] at ht
      cases ht
    simp [Fits, hin]
  | case6 unit ticks hnone =>
    have hout : ¬ InCalendar (ticks.toInt / unit.perSecond) := instant?_eq_none.mp hnone
    simp [Fits, hout, eq_comm]
  | case7 raw =>
    -- The value is of none of the kinds above, and only those can fit.
    have hunfit : ¬ Fits raw := by simp [Fits]
    simp [hunfit, eq_comm]

lemma exists_ofRaw_eq_ok : (∃ value, SqlValue.ofRaw raw = .ok value) ↔ Fits raw := by
  cases hraw : SqlValue.ofRaw raw with
  | ok value =>
    refine ⟨fun _ => ?_, fun _ => ⟨value, rfl⟩⟩
    by_contra hunfit
    rw [ofRaw_eq_error.mpr ⟨hunfit, rfl⟩] at hraw
    cases hraw
  | error e =>
    have hunfit := (ofRaw_eq_error.mp hraw).1
    simpa using hunfit

lemma fits_of_narrow (hlow : type.bounds.1 ≤ n) (hhigh : n < type.bounds.2)
    (hnarrow : type ∉ [.hugeInt, .uBigInt, .uHugeInt]) : Fits (.integer type n) := by
  cases type with
  | hugeInt | uBigInt | uHugeInt => simp at hnarrow
  | tinyInt | smallInt | int | bigInt | uTinyInt | uSmallInt | uInt =>
    simp only [IntegerType.bounds] at hlow hhigh
    exact ⟨nofun, by omega, by omega⟩

lemma describes_complaint (raw : RawValue) : Describes raw raw.complaint := by
  fun_cases RawValue.complaint raw with
  | case1 n => exact .whole (fun _ _ h => (RawValue.integer.inj h).1.symm) nofun
  | case2 type n hnarrow => exact .integer n hnarrow
  | case3 unit ticks => exact .timestamp unit ticks
  | case4 raw _ hinteger htimestamp =>
    exact .whole (fun type n h => (hinteger type n h).elim) htimestamp

end Values

section Rows

variable {values : List RawValue} {rows : List (List RawValue)} {row : Row} {decoded : List Row}
  {e : DatabaseError}

lemma rowOfRaw_eq_ok : Row.ofRaw values = .ok row ↔ List.Forall₂ Decodes values row.values := by
  simp only [Row.ofRaw, map_eq_ok, mapM_eq_ok, ofRaw_eq_ok]
  constructor
  · rintro ⟨_, h, rfl⟩
    exact h
  · intro h
    exact ⟨row.values, h, rfl⟩

lemma exists_rowOfRaw : (∃ row, Row.ofRaw values = .ok row) ↔ ∀ raw ∈ values, Fits raw := by
  simp only [← exists_ofRaw_eq_ok, ← exists_mapM_eq_ok, Row.ofRaw, map_eq_ok]
  constructor
  · rintro ⟨_, decoded, h, -⟩
    exact ⟨decoded, h⟩
  · rintro ⟨decoded, h⟩
    exact ⟨⟨decoded⟩, decoded, h, rfl⟩

lemma mapM_ofRaw_eq_error : values.mapM SqlValue.ofRaw = .error e ↔ FirstUnfit values e := by
  simp only [mapM_eq_error, FirstUnfit, exists_ofRaw_eq_ok, ofRaw_eq_error]

lemma rowOfRaw_eq_error : Row.ofRaw values = .error e ↔ FirstUnfit values e :=
  map_eq_error.trans mapM_ofRaw_eq_error

lemma mapM_rowOfRaw_eq_ok : rows.mapM Row.ofRaw = .ok decoded ↔
    List.Forall₂ (fun values row => List.Forall₂ Decodes values row.values) rows decoded := by
  simp only [mapM_eq_ok, rowOfRaw_eq_ok]

lemma exists_mapM_rowOfRaw : (∃ decoded, rows.mapM Row.ofRaw = .ok decoded) ↔
    ∀ values ∈ rows, ∀ raw ∈ values, Fits raw := by
  simp only [exists_mapM_eq_ok, exists_rowOfRaw]

lemma integer_at {values : List RawValue} {decoded : List SqlValue} {i : Nat} {type : IntegerType}
    {n : Int} (h : List.Forall₂ Decodes values decoded) (hi : values[i]? = some (.integer type n)) :
    ∃ word : Int64, decoded[i]? = some (.int word) ∧ word.toInt = n := by
  induction h generalizing i with
  | nil => simp at hi
  | cons hvalue _ ih =>
    cases i with
    | succ i => exact ih hi
    | zero =>
      obtain rfl := Option.some.inj hi
      cases hvalue with
      | integer word _ => exact ⟨word, rfl, rfl⟩

/-- Rows that are decoded one after the other fail as their values in a single row would. -/
lemma mapM_rowOfRaw_eq_error :
    rows.mapM Row.ofRaw = .error e ↔ FirstUnfit rows.flatten e := by
  rw [← mapM_ofRaw_eq_error]
  -- By rows: an error in the first row ends both sides, and otherwise the rest decides.
  induction rows with
  | nil => exact ⟨nofun, nofun⟩
  | cons values rows ih =>
    rw [List.mapM_cons, List.flatten_cons, List.mapM_append, Row.ofRaw]
    cases values.mapM SqlValue.ofRaw with
    | error cause => simp [Except.map, bind, Except.bind]
    | ok decoded =>
      cases hrows : rows.mapM Row.ofRaw <;>
        cases hrest : rows.flatten.mapM SqlValue.ofRaw <;>
        simp_all [Except.map, bind, Except.bind, pure, Except.pure]

end Rows

/-- Rows are decoded exactly or refused. A row is decoded if and only if all its values fit, as
those of the integer types within a signed word of 64 bits always do. It is then as long as before
and holds the same number in each integer column; otherwise its error describes the first value that
does not fit. A query decodes all rows or none, and its error describes the first value that does
not fit in the first row that has one. -/
theorem rows_decoded_exactly :
    (∀ values, (∃ row, Row.ofRaw values = .ok row) ↔ ∀ raw ∈ values, Fits raw) ∧
    (∀ values row, Row.ofRaw values = .ok row →
      row.values.length = values.length ∧ List.Forall₂ Decodes values row.values ∧
      ∀ (i : Nat) type n, values[i]? = some (.integer type n) →
        ∃ word : Int64, row.values[i]? = some (.int word) ∧ word.toInt = n) ∧
    (∀ values e, Row.ofRaw values = .error e ↔ FirstUnfit values e) ∧
    (∀ raw, ∃ text, Describes raw text ∧ (DatabaseError.unsupported raw).message =
      "[D006] Unsupported column type in result: " ++ text) ∧
    (∀ (type : IntegerType) n, type.bounds.1 ≤ n → n < type.bounds.2 →
      type ∉ [.hugeInt, .uBigInt, .uHugeInt] → Fits (.integer type n)) ∧
    ∀ {κ : Type} (c : Connection κ) (b : Backend κ) (sql : String) (params : List SqlValue) rows,
      b.isPoisoned = false →
      ((c.query sql (params.map SqlValue.toRaw)).run b.connection).1 = .ok ⟨rows, none⟩ →
      ∃ result : Except DatabaseError (List Row),
        ((Backend.handler c (.query sql params)).run.run b).1 = .ok result ∧
        ((∃ decoded, result = .ok decoded) ↔ ∀ values ∈ rows, ∀ raw ∈ values, Fits raw) ∧
        (∀ decoded, result = .ok decoded → List.Forall₂ (fun values row =>
          List.Forall₂ Decodes values row.values) rows decoded) ∧
        ∀ e, result = .error e ↔ FirstUnfit rows.flatten e := by
  refine ⟨fun values => exists_rowOfRaw, fun values row h => ?_, fun values e => rowOfRaw_eq_error,
    fun raw => ⟨raw.complaint, describes_complaint raw, rfl⟩,
    fun type n hlow hhigh hnarrow => fits_of_narrow hlow hhigh hnarrow, ?_⟩
  · have hdecodes := rowOfRaw_eq_ok.mp h
    refine ⟨hdecodes.length_eq.symm, hdecodes, fun i type n hi => ?_⟩
    exact integer_at hdecodes hi
  · intro κ c b sql params rows hlock hanswer
    refine ⟨Backend.everyRow ⟨rows, none⟩, ?_, exists_mapM_rowOfRaw,
      fun decoded => mapM_rowOfRaw_eq_ok.mp, fun e => mapM_rowOfRaw_eq_error⟩
    rw [handler_of_unpoisoned c _ hlock]
    simp only [asked, hanswer]
    rfl

/-- A decimal has no place among the SQL values. -/
example : Row.ofRaw [.integer .bigInt 1, .other "Decimal(1.5)"] =
    .error (.unsupported (.other "Decimal(1.5)")) := rfl

section FirstRow

variable {answer : RawRows} {rows : List Row} {e : DatabaseError}

lemma firstRow_cons (values : List RawValue) (rest : List (List RawValue)) :
    Backend.firstRow ⟨values :: rest, none⟩ = (Row.ofRaw values).map some := rfl

lemma everyRow_stepped (rows : List (List RawValue)) :
    Backend.everyRow ⟨rows, none⟩ = rows.mapM Row.ofRaw := rfl

/-- The query for a single row has the first row of all of them, or its error, unless all rows are
refused for a value after the first row. -/
lemma firstRow_cases (answer : RawRows) :
    Backend.firstRow answer = (Backend.everyRow answer).map List.head? ∨
      ∃ values rest row e, answer = ⟨values :: rest, none⟩ ∧
        Backend.firstRow answer = .ok (some row) ∧ Backend.everyRow answer = .error e ∧
        List.Forall₂ Decodes values row.values ∧ FirstUnfit rest.flatten e := by
  obtain ⟨rows, _ | text⟩ := answer
  · cases rows with
    | nil => exact .inl rfl
    | cons values rest =>
      rw [firstRow_cons, everyRow_stepped, List.mapM_cons]
      cases hrow : Row.ofRaw values with
      | error e => exact .inl rfl
      | ok row =>
        -- Only the query for all rows sees what is wrong with a later one.
        cases hrest : rest.mapM Row.ofRaw with
        | ok decoded => exact .inl rfl
        | error e =>
          exact .inr ⟨values, rest, row, e, rfl, rfl, rfl, rowOfRaw_eq_ok.mp hrow,
            mapM_rowOfRaw_eq_error.mp hrest⟩
  · exact .inl rfl

lemma firstRow_of_everyRow (h : Backend.everyRow answer = .ok rows) :
    Backend.firstRow answer = .ok rows.head? := by
  rcases firstRow_cases answer with hhead | ⟨_, _, _, _, -, -, hrefused, -⟩
  · rw [hhead, h]
    rfl
  · rw [h] at hrefused
    cases hrefused

lemma everyRow_of_firstRow_error (h : Backend.firstRow answer = .error e) :
    Backend.everyRow answer = .error e := by
  rcases firstRow_cases answer with hhead | ⟨_, _, _, _, -, hrow, -⟩
  · rw [hhead] at h
    exact map_eq_error.mp h
  · rw [h] at hrow
    cases hrow

end FirstRow

/-- The query for a single row is the head of the query for all. Given the same answer, it has the
first row if all rows are read, and its errors are errors of the other one too; where they differ
otherwise, it has a first row and all rows are refused for a value in a later one. A connection that
fails, at once or while stepping to any row, fails both with one error. -/
theorem queryRow_heads_query {κ κ' : Type} (c : Connection κ) (c' : Connection κ') (b : Backend κ)
    (b' : Backend κ') (sql : String) (params : List SqlValue)
    (hlock : b.isPoisoned = b'.isPoisoned)
    (hsame : ((c.query sql (params.map SqlValue.toRaw)).run b.connection).1 =
      ((c'.query sql (params.map SqlValue.toRaw)).run b'.connection).1) :
    let answer := ((c.query sql (params.map SqlValue.toRaw)).run b.connection).1
    let first : Except Panic (Except DatabaseError (Option Row)) :=
      ((Backend.handler c (.queryRow sql params)).run.run b).1
    let all : Except Panic (Except DatabaseError (List Row)) :=
      ((Backend.handler c' (.query sql params)).run.run b').1
    (∀ rows, all = .ok (.ok rows) → first = .ok (.ok rows.head?)) ∧
    (∀ e, first = .ok (.error e) → all = .ok (.error e)) ∧
    (first ≠ all.map (Except.map List.head?) → ∃ values rest row e,
      answer = .ok ⟨values :: rest, none⟩ ∧ first = .ok (.ok (some row)) ∧ all = .ok (.error e) ∧
        List.Forall₂ Decodes values row.values ∧ FirstUnfit rest.flatten e) ∧
    (b.isPoisoned = false → ∀ rows text, answer = .ok ⟨rows, some text⟩ →
      first = .ok (.error (.query ("row error: " ++ text))) ∧
        all = .ok (.error (.query ("row error: " ++ text)))) ∧
    (b.isPoisoned = false → ∀ text, answer = .error text →
      first = .ok (.error (.query (text ++ ": " ++ sql))) ∧
        all = .ok (.error (.query (text ++ ": " ++ sql)))) := by
  intro answer first all
  cases hpoisoned : b.isPoisoned with
  | true =>
    -- Neither call reaches its connection, so the answer does not matter.
    have hfirst : first = .ok (.error .poisoned) :=
      congrArg Prod.fst (handler_of_poisoned c (.queryRow sql params) hpoisoned)
    have hall : all = .ok (.error .poisoned) :=
      congrArg Prod.fst (handler_of_poisoned c' (.query sql params) (hlock ▸ hpoisoned))
    rw [hfirst, hall]
    refine ⟨nofun, fun e he => ?_, fun hne => absurd rfl hne, nofun, nofun⟩
    rw [Except.error.inj (Except.ok.inj he)]
  | false =>
    have hfirst : first = worth (.queryRow sql params) answer :=
      congrArg Prod.fst (handler_of_unpoisoned c (.queryRow sql params) hpoisoned)
    have hall : all = worth (.query sql params) answer :=
      (congrArg Prod.fst (handler_of_unpoisoned c' (.query sql params) (hlock ▸ hpoisoned))).trans
        (congrArg (worth (.query sql params)) hsame.symm)
    rw [hfirst, hall]
    cases answer with
    | panic => exact ⟨nofun, nofun, fun hne => absurd rfl hne, nofun, nofun⟩
    | error text =>
      refine ⟨nofun, fun e he => ?_, fun hne => absurd rfl hne, nofun, fun _ text' htext => ?_⟩
      · rw [← Except.error.inj (Except.ok.inj he)]
        rfl
      · rw [← Answer.error.inj htext]
        exact ⟨rfl, rfl⟩
    | ok handed =>
      refine ⟨fun rows hrows => ?_, fun e he => ?_, fun hne => ?_, fun _ rows text hstep => ?_,
        nofun⟩
      · exact congrArg Except.ok (firstRow_of_everyRow (Except.ok.inj hrows))
      · exact congrArg Except.ok (everyRow_of_firstRow_error (Except.ok.inj he))
      · rcases firstRow_cases handed with
          hhead | ⟨values, rest, row, e, rfl, hrow, he, hvalues, hrest⟩
        · exact absurd (congrArg Except.ok hhead) hne
        · exact ⟨values, rest, row, e, rfl, congrArg Except.ok hrow, congrArg Except.ok he, hvalues,
            hrest⟩
      · obtain rfl := Answer.ok.inj hstep
        exact ⟨rfl, rfl⟩

/-- A connection that answers every query with the same rows. -/
def repeating (rows : List (List RawValue)) : Connection Unit where
  execute _ _ := pure (.ok 0)
  executeBatch _ := pure (.ok ())
  query _ _ := pure (.ok ⟨rows, none⟩)

/-- A second row whose number is beyond a signed word is refused, but only by the query that reads
it. -/
theorem queryRow_heads_query_later :
    let c := repeating [[.integer .hugeInt (-5)], [.null, .integer .uBigInt (2 ^ 64 - 1)]]
    let first : Except Panic (Except DatabaseError (Option Row)) :=
      ((Backend.handler c (.queryRow "SELECT n" [])).run.run ⟨(), false⟩).1
    let all : Except Panic (Except DatabaseError (List Row)) :=
      ((Backend.handler c (.query "SELECT n" [])).run.run ⟨(), false⟩).1
    first = .ok (.ok (some ⟨[.int (-5)]⟩)) ∧
      all = .ok (.error (.unsupported (.integer .uBigInt (2 ^ 64 - 1)))) ∧
      ∃ e, all = .ok (.error e) ∧ FirstUnfit [.null, .integer .uBigInt (2 ^ 64 - 1)] e := by
  intro c first all
  have hfirst : first = .ok (.ok (some ⟨[.int (-5)]⟩)) := rfl
  have hall : all = .ok (.error (.unsupported (.integer .uBigInt (2 ^ 64 - 1)))) := rfl
  have hne : first ≠ all.map (Except.map List.head?) := by
    rw [hfirst, hall]
    nofun
  obtain ⟨-, -, hdiffer, -⟩ :=
    queryRow_heads_query c c ⟨(), false⟩ ⟨(), false⟩ "SELECT n" [] rfl rfl
  obtain ⟨values, rest, row, e, hanswer, -, he, -, hunfit⟩ := hdiffer hne
  obtain ⟨-, rfl⟩ := List.cons.inj (RawRows.mk.inj (Answer.ok.inj hanswer)).1
  exact ⟨hfirst, hall, e, he, hunfit⟩

end SqlMigrations.Proofs
