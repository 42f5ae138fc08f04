import Mathlib.Algebra.Order.Ring.Int
import Mathlib.Tactic.Ring
import SqlMigrations.Database.Value
import SqlMigrations.Proofs.Results

/-!
# Counts of ticks

An instant is exactly as many nanoseconds after 1970 as its count of ticks makes, before 1970 too,
and a count is refused only if its seconds lie outside the calendar. The same seconds and
nanoseconds come out of arithmetic in words of 64 bits and a last one of 32 bits: no step of it
overflows and no digit is lost, whatever the count.
-/

namespace SqlMigrations.Proofs

/-- The nanoseconds from the start of 1970 to an instant. -/
def unixNanos (t : Instant) : Int := t.secs * 1000000000 + t.nanos

/-- The seconds of the years -262143 to 262142. -/
def InCalendar (secs : Int) : Prop := -8334601228800 ≤ secs ∧ secs ≤ 8210266876799

lemma unixNanos_injective : Function.Injective unixNanos := by
  intro t t' h
  obtain ⟨secs, nanos, hlt, _, _⟩ := t
  obtain ⟨secs', nanos', hlt', _, _⟩ := t'
  simp only [unixNanos] at h
  simp only [Instant.mk.injEq]
  omega

/-- Instants are ordered by time. -/
instance : LT Instant := ⟨fun t t' => unixNanos t < unixNanos t'⟩

instance : LE Instant := ⟨fun t t' => unixNanos t ≤ unixNanos t'⟩

lemma instant_lt_iff {t t' : Instant} : t < t' ↔ unixNanos t < unixNanos t' := Iff.rfl

lemma instant_le_iff {t t' : Instant} : t ≤ t' ↔ unixNanos t ≤ unixNanos t' := Iff.rfl

lemma ofUnix?_eq_some {secs : Int} {nanos : Nat} {t : Instant} :
    Instant.ofUnix? secs nanos = some t ↔ t.secs = secs ∧ t.nanos = nanos := by
  unfold Instant.ofUnix?
  constructor
  · intro h
    split at h
    · rw [← Option.some.inj h]
      exact ⟨rfl, rfl⟩
    · cases h
  · rintro ⟨rfl, rfl⟩
    rw [dif_pos ⟨t.nanos_lt, t.secs_ge, t.secs_le⟩]

lemma ofUnix?_eq_none {secs : Int} {nanos : Nat} (hnanos : nanos < 1000000000) :
    Instant.ofUnix? secs nanos = none ↔ ¬ InCalendar secs := by
  unfold Instant.ofUnix? InCalendar
  simp [hnanos]

section Ticks

variable {unit unit' : TimeUnit} {t : Instant}

lemma perSecond_pos (unit : TimeUnit) : (0 : Int) < unit.perSecond := by
  cases unit <;> decide

lemma nanosPerTick_pos (unit : TimeUnit) : (0 : Int) < unit.nanosPerTick := by
  cases unit <;> decide

lemma perSecond_mul_nanosPerTick (unit : TimeUnit) :
    unit.perSecond * unit.nanosPerTick = 1000000000 := by
  cases unit <;> rfl

/-- What whole seconds leave of a count is below a second, and nothing is lost by taking them. -/
lemma split_ticks (unit : TimeUnit) (ticks : Int) :
    0 ≤ ticks % unit.perSecond * unit.nanosPerTick ∧
      ticks % unit.perSecond * unit.nanosPerTick < 1000000000 ∧
      ticks / unit.perSecond * 1000000000 + ticks % unit.perSecond * unit.nanosPerTick =
        ticks * unit.nanosPerTick := by
  have hper := perSecond_pos unit
  have hnanos := nanosPerTick_pos unit
  have hsecond : (unit.perSecond : Int) * unit.nanosPerTick = 1000000000 := by
    exact_mod_cast perSecond_mul_nanosPerTick unit
  have hnonneg : 0 ≤ ticks % unit.perSecond := Int.emod_nonneg ticks hper.ne'
  have hlt : ticks % unit.perSecond < unit.perSecond := Int.emod_lt_of_pos ticks hper
  refine ⟨Int.mul_nonneg hnonneg hnanos.le, ?_, ?_⟩
  · calc ticks % unit.perSecond * unit.nanosPerTick
        < unit.perSecond * unit.nanosPerTick := Int.mul_lt_mul_of_pos_right hlt hnanos
      _ = 1000000000 := hsecond
  · calc ticks / unit.perSecond * 1000000000 + ticks % unit.perSecond * unit.nanosPerTick
        = (unit.perSecond * (ticks / unit.perSecond) + ticks % unit.perSecond) *
            unit.nanosPerTick := by rw [← hsecond]; ring
      _ = ticks * unit.nanosPerTick := by rw [Int.mul_ediv_add_emod]

lemma instant?_eq_ofUnix? (unit : TimeUnit) (ticks : Int) :
    unit.instant? ticks = Instant.ofUnix? (ticks / unit.perSecond)
      (ticks % unit.perSecond * unit.nanosPerTick).toNat := by
  have hper := (perSecond_pos unit).le
  have hnonneg : 0 ≤ ticks % unit.perSecond := Int.emod_nonneg ticks (perSecond_pos unit).ne'
  unfold TimeUnit.instant?
  rw [Int.fdiv_eq_ediv_of_nonneg ticks hper, Int.fmod_eq_emod_of_nonneg ticks hper,
    Int.toNat_mul hnonneg (nanosPerTick_pos unit).le, Int.toNat_natCast]

/-- The instant of a count is the one that is as many nanoseconds after 1970 as the count makes. -/
lemma instant?_eq_some {ticks : Int} :
    unit.instant? ticks = some t ↔ unixNanos t = ticks * unit.nanosPerTick := by
  obtain ⟨hnonneg, hlt, hsplit⟩ := split_ticks unit ticks
  have hnanos := t.nanos_lt
  rw [instant?_eq_ofUnix?, ofUnix?_eq_some, unixNanos]
  omega

lemma instant?_eq_none {ticks : Int} :
    unit.instant? ticks = none ↔ ¬ InCalendar (ticks / unit.perSecond) := by
  obtain ⟨hnonneg, hlt, -⟩ := split_ticks unit ticks
  rw [instant?_eq_ofUnix?, ofUnix?_eq_none (by omega)]

lemma exists_instant? {ticks : Int} (h : InCalendar (ticks / unit.perSecond)) :
    ∃ t, unit.instant? ticks = some t := by
  rw [← Option.isSome_iff_exists, Option.isSome_iff_ne_none, Ne, instant?_eq_none, not_not]
  exact h

/-- A word of nanoseconds ends within the calendar at both ends of its range. -/
lemma inCalendar_nanosecond (ticks : Int64) :
    InCalendar (ticks.toInt / TimeUnit.nanosecond.perSecond) := by
  have hge := ticks.le_toInt
  have hlt := ticks.toInt_lt
  have hper : (TimeUnit.nanosecond.perSecond : Int) = 1000000000 := rfl
  rw [InCalendar, hper]
  omega

lemma instant?_congr {ticks ticks' : Int}
    (h : ticks * unit.nanosPerTick = ticks' * unit'.nanosPerTick) :
    unit.instant? ticks = unit'.instant? ticks' :=
  Option.ext fun t => by rw [instant?_eq_some, instant?_eq_some, h]

end Ticks

/-- The word of a result, unless it overflows 64 bits. -/
def word? (n : Int) : Option Int64 :=
  if -2 ^ 63 ≤ n ∧ n < 2 ^ 63 then some (Int64.ofInt n) else none

/-- The lower half of a word, unless something is lost. -/
def lowHalf? (word : Int64) : Option UInt32 :=
  if 0 ≤ word.toInt ∧ word.toInt < 2 ^ 32 then some (UInt32.ofNat word.toInt.toNat) else none

/-- The seconds and nanoseconds of a count by arithmetic in words, if every step of it fits. -/
def secondsAndNanos? (unit : TimeUnit) (ticks : Int64) : Option (Int64 × UInt32) := do
  let secs ← word? (ticks.toInt / unit.perSecond)
  let rest ← word? (ticks.toInt % unit.perSecond)
  let nanos ← word? (rest.toInt * unit.nanosPerTick)
  let low ← lowHalf? nanos
  return (secs, low)

section Words

variable {unit : TimeUnit}

lemma exists_word {n : Int} (hge : -2 ^ 63 ≤ n) (hlt : n < 2 ^ 63) :
    ∃ word, word? n = some word ∧ word.toInt = n :=
  ⟨Int64.ofInt n, if_pos ⟨hge, hlt⟩, Int64.toInt_ofInt_of_le hge hlt⟩

lemma exists_lowHalf (word : Int64) (hge : 0 ≤ word.toInt) (hlt : word.toInt < 2 ^ 32) :
    ∃ low, lowHalf? word = some low ∧ low.toNat = word.toInt.toNat :=
  ⟨UInt32.ofNat word.toInt.toNat, if_pos ⟨hge, hlt⟩, UInt32.toNat_ofNat_of_lt' (by
    rw [UInt32.size]
    omega)⟩

/-- A quotient by a positive number is no further from zero than what is divided. -/
lemma ediv_within {n d : Int} (hd : 0 < d) (hge : -2 ^ 63 ≤ n) (hlt : n < 2 ^ 63) :
    -2 ^ 63 ≤ n / d ∧ n / d < 2 ^ 63 := by
  constructor
  · rw [Int.le_ediv_iff_mul_le hd]
    omega
  · rw [Int.ediv_lt_iff_lt_mul hd]
    omega

lemma exists_secondsAndNanos (unit : TimeUnit) (ticks : Int64) :
    ∃ secs nanos, secondsAndNanos? unit ticks = some (secs, nanos) ∧
      secs.toInt = ticks.toInt / unit.perSecond ∧
      (nanos.toNat : Int) = ticks.toInt % unit.perSecond * unit.nanosPerTick := by
  have hper := perSecond_pos unit
  have hnanos := nanosPerTick_pos unit
  obtain ⟨hnonneg, hlt, -⟩ := split_ticks unit ticks.toInt
  have hrest : 0 ≤ ticks.toInt % unit.perSecond := Int.emod_nonneg _ hper.ne'
  have hrest' : ticks.toInt % unit.perSecond ≤ ticks.toInt % unit.perSecond * unit.nanosPerTick :=
    le_mul_of_one_le_right hrest hnanos
  obtain ⟨hdivge, hdivlt⟩ := ediv_within hper ticks.le_toInt ticks.toInt_lt
  obtain ⟨secs, hsecs, hsecs'⟩ := exists_word hdivge hdivlt
  obtain ⟨rest, hword, hword'⟩ := exists_word (n := ticks.toInt % unit.perSecond)
    (by omega) (by omega)
  obtain ⟨nanos, hproduct, hproduct'⟩ := exists_word (n := rest.toInt * unit.nanosPerTick)
    (by rw [hword']; omega) (by rw [hword']; omega)
  rw [hword'] at hproduct'
  obtain ⟨low, hlow, hlow'⟩ := exists_lowHalf nanos (by omega) (by omega)
  refine ⟨secs, low, ?_, hsecs', by omega⟩
  simp [secondsAndNanos?, hsecs, hword, hproduct, hlow]

end Words

section Decoding

variable {unit unit' : TimeUnit} {ticks ticks' : Int64} {t t' : Instant} {value : SqlValue}

lemma ofRaw_timestamp_eq_ok : SqlValue.ofRaw (.timestamp unit ticks) = .ok value ↔
    ∃ t, value = .timestamp t ∧ unit.instant? ticks.toInt = some t := by
  unfold SqlValue.ofRaw
  cases hinstant : unit.instant? ticks.toInt with
  | none => simp [hinstant]
  | some t => simp [hinstant, eq_comm]

lemma ofRaw_timestamp : SqlValue.ofRaw (.timestamp unit ticks) = .ok (.timestamp t) ↔
    unixNanos t = ticks.toInt * unit.nanosPerTick := by
  simp [ofRaw_timestamp_eq_ok, instant?_eq_some]

lemma ofRaw_timestamp_of_outside (h : ¬ InCalendar (ticks.toInt / unit.perSecond)) :
    SqlValue.ofRaw (.timestamp unit ticks) = .error (.unsupported (.timestamp unit ticks)) := by
  simp [SqlValue.ofRaw, instant?_eq_none.mpr h]

lemma exists_ofRaw_timestamp (h : InCalendar (ticks.toInt / unit.perSecond)) :
    ∃ t, SqlValue.ofRaw (.timestamp unit ticks) = .ok (.timestamp t) := by
  obtain ⟨t, ht⟩ := exists_instant? h
  exact ⟨t, ofRaw_timestamp_eq_ok.mpr ⟨t, rfl, ht⟩⟩

lemma ofRaw_timestamp_lt_iff (h : SqlValue.ofRaw (.timestamp unit ticks) = .ok (.timestamp t))
    (h' : SqlValue.ofRaw (.timestamp unit ticks') = .ok (.timestamp t')) :
    t < t' ↔ ticks < ticks' := by
  rw [instant_lt_iff, ofRaw_timestamp.mp h, ofRaw_timestamp.mp h', Int64.lt_iff_toInt_lt]
  exact Int.mul_lt_mul_right (nanosPerTick_pos unit)

end Decoding

/-- Counts of ticks are decoded exactly. Arithmetic in words gives the seconds and nanoseconds of
any count without an overflow or a loss, and they are as many nanoseconds as the count makes; the
instant is theirs if the seconds lie in the calendar, as those of a count of nanoseconds always do,
and other counts are refused. So later counts are later instants, and equal times in two units are
one. -/
theorem tick_counts_decoded_exactly :
    (∀ unit ticks, ∃ secs nanos, secondsAndNanos? unit ticks = some (secs, nanos) ∧
      nanos.toNat < 1000000000 ∧
      secs.toInt * 1000000000 + nanos.toNat = ticks.toInt * unit.nanosPerTick ∧
      (InCalendar secs.toInt → ∃ t, SqlValue.ofRaw (.timestamp unit ticks) = .ok (.timestamp t) ∧
        t.secs = secs.toInt ∧ t.nanos = nanos.toNat) ∧
      (¬ InCalendar secs.toInt → SqlValue.ofRaw (.timestamp unit ticks) =
        .error (.unsupported (.timestamp unit ticks)))) ∧
    (TimeUnit.second.nanosPerTick = 1000000000 ∧ TimeUnit.millisecond.nanosPerTick = 1000000 ∧
      TimeUnit.microsecond.nanosPerTick = 1000 ∧ TimeUnit.nanosecond.nanosPerTick = 1) ∧
    (∀ ticks, ∃ t, SqlValue.ofRaw (.timestamp .nanosecond ticks) = .ok (.timestamp t)) ∧
    (∀ unit ticks ticks' t t', SqlValue.ofRaw (.timestamp unit ticks) = .ok (.timestamp t) →
      SqlValue.ofRaw (.timestamp unit ticks') = .ok (.timestamp t') → (t < t' ↔ ticks < ticks')) ∧
    ∀ (unit unit' : TimeUnit) (ticks ticks' : Int64),
      ticks.toInt * unit.nanosPerTick = ticks'.toInt * unit'.nanosPerTick →
      ∀ value, SqlValue.ofRaw (.timestamp unit ticks) = .ok value ↔
        SqlValue.ofRaw (.timestamp unit' ticks') = .ok value := by
  refine ⟨fun unit ticks => ?_, by decide, fun ticks => ?_, ?_, ?_⟩
  · obtain ⟨secs, nanos, hwords, hsecs, hnanos⟩ := exists_secondsAndNanos unit ticks
    obtain ⟨-, hlt, hsplit⟩ := split_ticks unit ticks.toInt
    refine ⟨secs, nanos, hwords, by omega, by omega, fun hin => ?_, fun hout => ?_⟩
    · rw [hsecs] at hin
      obtain ⟨t, ht⟩ := exists_ofRaw_timestamp hin
      have hsame := ofRaw_timestamp.mp ht
      have ht' := t.nanos_lt
      rw [unixNanos] at hsame
      exact ⟨t, ht, by omega, by omega⟩
    · rw [hsecs] at hout
      exact ofRaw_timestamp_of_outside hout
  · exact exists_ofRaw_timestamp (inCalendar_nanosecond ticks)
  · exact fun unit ticks ticks' t t' h h' => ofRaw_timestamp_lt_iff h h'
  · intro unit unit' ticks ticks' hsame value
    rw [ofRaw_timestamp_eq_ok, ofRaw_timestamp_eq_ok, instant?_congr hsame]

/-- A tick before 1970 is in the last second of 1969. -/
example : TimeUnit.millisecond.instant? (-1) =
    some ⟨-1, 999000000, by decide, by decide, by decide⟩ := by
  decide +kernel

end SqlMigrations.Proofs
