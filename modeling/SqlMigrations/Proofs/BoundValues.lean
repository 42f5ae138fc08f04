import SqlMigrations.Proofs.QueryResults

/-!
# Bound values

A value that is bound as a parameter and read back is the same value, but for what a timestamp has
below a microsecond: it is rounded towards the past, before 1970 too. No instant is too early or too
late to be bound.
-/

namespace SqlMigrations.Proofs

/-- An instant without what it has below a microsecond. -/
def wholeMicros (t : Instant) : Instant where
  secs := t.secs
  nanos := t.nanos / 1000 * 1000
  nanos_lt := by
    have h := t.nanos_lt
    omega
  secs_ge := t.secs_ge
  secs_le := t.secs_le

/-- The value that is read back for a bound one. -/
def readBack (value : SqlValue) : SqlValue :=
  match value with
  | .timestamp t => .timestamp (wholeMicros t)
  | other => other

section Instants

variable {t t' : Instant}

/-- The calendar is narrower than a word of microseconds. -/
lemma micros_bounds (t : Instant) : -2 ^ 63 ≤ t.micros ∧ t.micros < 2 ^ 63 := by
  have hnanos := t.nanos_lt
  have hge := t.secs_ge
  have hle := t.secs_le
  unfold Instant.micros
  omega

lemma toInt_micros (t : Instant) : (Int64.ofInt t.micros).toInt = t.micros :=
  Int64.toInt_ofInt_of_le (micros_bounds t).1 (micros_bounds t).2

lemma micros_eq_div (t : Instant) : t.micros = unixNanos t / 1000 := by
  unfold Instant.micros unixNanos
  omega

lemma unixNanos_wholeMicros (t : Instant) : unixNanos (wholeMicros t) = t.micros * 1000 := by
  unfold Instant.micros unixNanos wholeMicros
  push_cast
  omega

lemma wholeMicros_wholeMicros (t : Instant) : wholeMicros (wholeMicros t) = wholeMicros t := by
  apply unixNanos_injective
  rw [unixNanos_wholeMicros, micros_eq_div, unixNanos_wholeMicros]
  omega

lemma wholeMicros_eq_self : wholeMicros t = t ↔ t.nanos % 1000 = 0 := by
  constructor
  · intro h
    have hnanos : t.nanos / 1000 * 1000 = t.nanos := congrArg Instant.nanos h
    omega
  · intro h
    apply unixNanos_injective
    unfold unixNanos wholeMicros
    push_cast
    omega

lemma wholeMicros_mono (h : t ≤ t') : wholeMicros t ≤ wholeMicros t' := by
  rw [instant_le_iff] at h ⊢
  rw [unixNanos_wholeMicros, unixNanos_wholeMicros, micros_eq_div, micros_eq_div]
  omega

lemma ofRaw_toRaw_timestamp (t : Instant) :
    SqlValue.ofRaw (SqlValue.timestamp t).toRaw = .ok (.timestamp (wholeMicros t)) := by
  refine ofRaw_timestamp.mpr ?_
  rw [toInt_micros, unixNanos_wholeMicros]
  rfl

end Instants

lemma ofRaw_toRaw (value : SqlValue) : SqlValue.ofRaw value.toRaw = .ok (readBack value) := by
  cases value with
  | null | bool | text => rfl
  | int n => exact ofRaw_eq_ok.mpr (.integer n nofun)
  | timestamp t => exact ofRaw_toRaw_timestamp t

/-- Decoding undoes binding. Every value but a timestamp is read back as it is, and a timestamp,
whose microseconds always fit a word, as the last whole microsecond before it or at it. So what was
read back once is read back as it is; a timestamp is if and only if it has nothing below a
microsecond; and timestamps are read back in their order. -/
theorem decoding_undoes_binding :
    (∀ value : SqlValue, (∀ t, value ≠ .timestamp t) →
      SqlValue.ofRaw value.toRaw = .ok value) ∧
    (∀ t : Instant, ∃ (ticks : Int64) (t' : Instant), ticks.toInt = t.micros ∧
      (SqlValue.timestamp t).toRaw = .timestamp .microsecond ticks ∧
      SqlValue.ofRaw (.timestamp .microsecond ticks) = .ok (.timestamp t') ∧
      unixNanos t' = unixNanos t / 1000 * 1000) ∧
    (∀ value value' : SqlValue, SqlValue.ofRaw value.toRaw = .ok value' →
      SqlValue.ofRaw value'.toRaw = .ok value') ∧
    (∀ t, SqlValue.ofRaw (SqlValue.timestamp t).toRaw = .ok (.timestamp t) ↔
      t.nanos % 1000 = 0) ∧
    ∀ t₁ t₂ t₁' t₂', SqlValue.ofRaw (SqlValue.timestamp t₁).toRaw = .ok (.timestamp t₁') →
      SqlValue.ofRaw (SqlValue.timestamp t₂).toRaw = .ok (.timestamp t₂') → t₁ ≤ t₂ →
      t₁' ≤ t₂' := by
  refine ⟨fun value hvalue => ?_, fun t => ?_, fun value value' h => ?_, fun t => ?_, ?_⟩
  · rw [ofRaw_toRaw]
    cases value with
    | timestamp t => exact absurd rfl (hvalue t)
    | null | bool | int | text => rfl
  · refine ⟨_, wholeMicros t, toInt_micros t, rfl, ofRaw_toRaw_timestamp t, ?_⟩
    rw [unixNanos_wholeMicros, micros_eq_div]
  · rw [ofRaw_toRaw] at h
    obtain rfl := Except.ok.inj h
    rw [ofRaw_toRaw]
    cases value with
    | timestamp t => simp only [readBack, wholeMicros_wholeMicros]
    | null | bool | int | text => rfl
  · rw [ofRaw_toRaw_timestamp, Except.ok.injEq, SqlValue.timestamp.injEq, wholeMicros_eq_self]
  · intro t₁ t₂ t₁' t₂' h₁ h₂ hle
    rw [ofRaw_toRaw_timestamp, Except.ok.injEq, SqlValue.timestamp.injEq] at h₁ h₂
    rw [← h₁, ← h₂]
    exact wholeMicros_mono hle

end SqlMigrations.Proofs
