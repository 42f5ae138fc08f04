import Mathlib.Data.List.Induction
import Mathlib.Data.Nat.Digits.Defs
import SqlMigrations.Migration
import SqlMigrations.Proofs.Cuts

/-!
# The grammar of migration file names

A file name is a numeral below 2^64, an underscore, a description and the ending. What the numeral
writes is said by base ten digits and not by the way in which it is read. Each other name is refused
for one of three reasons, and which one it is does not depend on the order in which they are looked
for.
-/

namespace SqlMigrations.Proofs

open Migration

/-- A run of ASCII digits that is not empty. -/
def IsNumeral (token : String) : Prop := token ≠ "" ∧ ∀ c ∈ token.toList, '0' ≤ c ∧ c ≤ '9'

/-- The number that a run of digits writes in base ten, its last digit the least significant. -/
def decimalValue (token : String) : Nat :=
  Nat.ofDigits 10 (token.toList.reverse.map fun c => c.toNat - '0'.toNat)

/-- A numeral of a number of 64 bits, with any number of zeros in front. -/
def paddedNumeral (zeros : Nat) (version : UInt64) : String :=
  String.ofList (List.replicate zeros '0') ++ version.toNat.repr

lemma isDigit_iff {c : Char} : c.isDigit = true ↔ '0' ≤ c ∧ c ≤ '9' := by
  simp [Char.isDigit, Char.le_def]

lemma ofDigitChars_eq_ofDigits (cs : List Char) : Nat.ofDigitChars 10 cs 0 =
    Nat.ofDigits 10 (cs.reverse.map fun c => c.toNat - '0'.toNat) := by
  induction cs using List.reverseRecOn with
  | nil => rfl
  | append_singleton cs c ih =>
    rw [Nat.ofDigitChars_append, Nat.ofDigitChars_cons, Nat.ofDigitChars_nil, ih,
      List.reverse_append, List.reverse_singleton, List.singleton_append, List.map_cons,
      Nat.ofDigits_cons, Nat.add_comm]

lemma read?_eq_some {token : String} {n : Nat} :
    Decimal.read? token.toList = some n ↔ IsNumeral token ∧ decimalValue token = n := by
  unfold Decimal.read? IsNumeral decimalValue
  simp [isDigit_iff, ofDigitChars_eq_ofDigits]

lemma readUInt64?_eq_some {token : String} {version : UInt64} :
    Decimal.readUInt64? token.toList = some version ↔
      IsNumeral token ∧ decimalValue token = version.toNat := by
  rw [← read?_eq_some]
  unfold Decimal.readUInt64?
  constructor
  · intro h
    split at h
    · rename_i n hn
      split at h
      · rename_i hlt
        rw [hn, ← Option.some.inj h, UInt64.toNat_ofNat_of_lt' hlt]
      · cases h
    · cases h
  · intro h
    rw [h]
    simp [version.toNat_lt]

lemma readUInt64?_eq_none {token : String} : Decimal.readUInt64? token.toList = none ↔
    ¬ (IsNumeral token ∧ decimalValue token < 2 ^ 64) := by
  rw [Option.eq_none_iff_forall_ne_some]
  constructor
  · rintro h ⟨hnumeral, hlt⟩
    refine h (UInt64.ofNat (decimalValue token)) (readUInt64?_eq_some.mpr ⟨hnumeral, ?_⟩)
    rw [UInt64.toNat_ofNat_of_lt' hlt]
  · intro h version hversion
    obtain ⟨hnumeral, hvalue⟩ := readUInt64?_eq_some.mp hversion
    exact h ⟨hnumeral, hvalue ▸ version.toNat_lt⟩

lemma IsNumeral.separator_notMem {token : String} (h : IsNumeral token) : '_' ∉ token.toList := by
  intro hmem
  exact absurd (h.2 _ hmem) (by decide)

lemma paddedNumeral_isNumeral (zeros : Nat) (version : UInt64) :
    IsNumeral (paddedNumeral zeros version) := by
  constructor
  · simp [paddedNumeral]
  · intro c hc
    rw [← isDigit_iff]
    simp only [paddedNumeral, String.toList_append, String.toList_ofList, List.mem_append] at hc
    rcases hc with hc | hc
    · rw [List.eq_of_mem_replicate hc]
      rfl
    · rw [Nat.toList_repr] at hc
      exact Nat.isDigit_of_mem_toDigits (by decide) (by decide) hc

lemma decimalValue_paddedNumeral (zeros : Nat) (version : UInt64) :
    decimalValue (paddedNumeral zeros version) = version.toNat := by
  unfold decimalValue paddedNumeral
  rw [← ofDigitChars_eq_ofDigits, String.toList_append, String.toList_ofList,
    Nat.ofDigitChars_append, Nat.ofDigitChars_replicate_zero, Nat.mul_zero, Nat.toList_repr,
    Nat.ofDigitChars_ten_toDigits]

/-- The file name of a token and a description. -/
def filenameOf (token description : String) : String := token ++ "_" ++ description ++ ".sql"

/-- Why a file name is refused: it lacks the ending; or it has the ending, and no underscore before
it; or what stands before the first underscore is no numeral of a number below 2^64. -/
inductive Refused (name : String) : FilenameError → Prop
  | invalidExtension (unended : ∀ stem, name ≠ stem ++ ".sql") :
      Refused name (.invalidExtension name)
  | malformedName {stem : String} (ended : name = stem ++ ".sql")
      (unseparated : '_' ∉ stem.toList) : Refused name (.malformedName name)
  | nonNumericVersion {token rest : String} (separated : name = filenameOf token rest)
      (first : '_' ∉ token.toList)
      (unnumbered : ¬ (IsNumeral token ∧ decimalValue token < 2 ^ 64)) :
      Refused name (.nonNumericVersion name token)

lemma dropEnding?_ending (stem : String) :
    Text.dropEnding? ending (stem ++ ".sql").toList = some stem.toList := by
  rw [dropEnding?_eq_some, String.toList_append]
  rfl

lemma filename_cases (name : String) : (∀ stem, name ≠ stem ++ ".sql") ∨
    (∃ stem, name = stem ++ ".sql" ∧ '_' ∉ stem.toList) ∨
    ∃ token rest, name = filenameOf token rest ∧ '_' ∉ token.toList := by
  by_cases hended : ∃ stem, name = stem ++ ".sql"
  · obtain ⟨stem, rfl⟩ := hended
    cases hsplit : Text.splitFirst? '_' stem.toList with
    | none => exact .inr (.inl ⟨stem, rfl, splitFirst?_eq_none.mp hsplit⟩)
    | some parts =>
      obtain ⟨hstem, hnot⟩ := splitFirst?_eq_some.mp hsplit
      refine .inr (.inr ⟨String.ofList parts.1, String.ofList parts.2, ?_, by simpa using hnot⟩)
      have hparts : stem = String.ofList parts.1 ++ "_" ++ String.ofList parts.2 := by
        rw [← String.toList_inj, hstem]
        simp
      rw [filenameOf, ← hparts]
  · exact .inl (by simpa using hended)

lemma parseFilename_unended {name : String} (h : ∀ stem, name ≠ stem ++ ".sql") :
    parseFilename name = .error (.invalidExtension name) := by
  have hnone : Text.dropEnding? ending name.toList = none := by
    rw [dropEnding?_eq_none]
    rintro ⟨stem, hstem⟩
    apply h (String.ofList stem)
    rw [← String.toList_inj, String.toList_append, String.toList_ofList, ← hstem]
    rfl
  unfold parseFilename
  rw [hnone]

lemma parseFilename_unseparated {stem : String} (h : '_' ∉ stem.toList) :
    parseFilename (stem ++ ".sql") = .error (.malformedName (stem ++ ".sql")) := by
  unfold parseFilename
  simp only [dropEnding?_ending, splitFirst?_eq_none.mpr h]

lemma splitFirst?_stem {token : String} (rest : String) (h : '_' ∉ token.toList) :
    Text.splitFirst? '_' (token ++ "_" ++ rest).toList = some (token.toList, rest.toList) := by
  rw [splitFirst?_eq_some]
  exact ⟨by simp, h⟩

lemma parseFilename_filenameOf {token : String} (rest : String) (h : '_' ∉ token.toList) :
    parseFilename (filenameOf token rest) =
      match Decimal.readUInt64? token.toList with
      | some version => .ok (version, rest)
      | none => .error (.nonNumericVersion (filenameOf token rest) token) := by
  unfold parseFilename filenameOf
  simp only [dropEnding?_ending, splitFirst?_stem rest h, String.ofList_toList]
  cases Decimal.readUInt64? token.toList <;> rfl

lemma filenameOf_inj {token token' rest rest' : String} (h : '_' ∉ token.toList)
    (h' : '_' ∉ token'.toList) (heq : filenameOf token rest = filenameOf token' rest') :
    token = token' ∧ rest = rest' := by
  have hdrop := dropEnding?_ending (token ++ "_" ++ rest)
  rw [← filenameOf, heq, filenameOf, dropEnding?_ending, Option.some.injEq] at hdrop
  have hsplit := splitFirst?_stem rest h
  rw [← hdrop, splitFirst?_stem rest' h', Option.some.injEq, Prod.mk.injEq] at hsplit
  exact ⟨String.toList_inj.mp hsplit.1.symm, String.toList_inj.mp hsplit.2.symm⟩

lemma parseFilename_eq_ok {name description : String} {version : UInt64} :
    parseFilename name = .ok (version, description) ↔ ∃ token, IsNumeral token ∧
      decimalValue token = version.toNat ∧ name = filenameOf token description := by
  constructor
  · intro h
    rcases filename_cases name with hended | ⟨stem, rfl, hnot⟩ | ⟨token, rest, rfl, hnot⟩
    · rw [parseFilename_unended hended] at h
      cases h
    · rw [parseFilename_unseparated hnot] at h
      cases h
    · rw [parseFilename_filenameOf rest hnot] at h
      cases hread : Decimal.readUInt64? token.toList with
      | none => simp [hread] at h
      | some read =>
        simp only [hread, Except.ok.injEq, Prod.mk.injEq] at h
        obtain ⟨rfl, rfl⟩ := h
        obtain ⟨hnumeral, hvalue⟩ := readUInt64?_eq_some.mp hread
        exact ⟨token, hnumeral, hvalue, rfl⟩
  · rintro ⟨token, hnumeral, hvalue, rfl⟩
    rw [parseFilename_filenameOf description hnumeral.separator_notMem,
      readUInt64?_eq_some.mpr ⟨hnumeral, hvalue⟩]

lemma parseFilename_eq_error {name : String} {e : FilenameError} :
    parseFilename name = .error e ↔ Refused name e := by
  constructor
  · intro h
    rcases filename_cases name with hended | ⟨stem, rfl, hnot⟩ | ⟨token, rest, rfl, hnot⟩
    · rw [parseFilename_unended hended] at h
      exact Except.error.inj h ▸ .invalidExtension hended
    · rw [parseFilename_unseparated hnot] at h
      exact Except.error.inj h ▸ .malformedName rfl hnot
    · rw [parseFilename_filenameOf rest hnot] at h
      cases hread : Decimal.readUInt64? token.toList with
      | none =>
        simp only [hread, Except.error.injEq] at h
        exact h ▸ .nonNumericVersion rfl hnot (readUInt64?_eq_none.mp hread)
      | some read => simp [hread] at h
  · intro h
    cases h with
    | invalidExtension hended => exact parseFilename_unended hended
    | malformedName hended hnot =>
      rw [hended]
      exact parseFilename_unseparated hnot
    | nonNumericVersion hseparated hnot hunnumbered =>
      rw [hseparated, parseFilename_filenameOf _ hnot, readUInt64?_eq_none.mpr hunnumbered]

/-- File names are read by their grammar. A name is accepted if and only if it is a numeral below
2^64, an underscore, a description and the ending; there is one way at most to cut it so; what is
refused is refused for the reason that holds; and a version is read back from its numeral with any
number of zeros in front and any description at all. -/
theorem parseFilename_grammar :
    (∀ name version description, parseFilename name = .ok (version, description) ↔
      ∃ token, IsNumeral token ∧ decimalValue token = version.toNat ∧
        name = filenameOf token description) ∧
    (∀ token token' description description', IsNumeral token → IsNumeral token' →
      filenameOf token description = filenameOf token' description' →
      token = token' ∧ description = description') ∧
    (∀ name e, parseFilename name = .error e ↔ Refused name e) ∧
    ∀ zeros version description,
      parseFilename (filenameOf (paddedNumeral zeros version) description) =
        .ok (version, description) := by
  refine ⟨fun _ _ _ => parseFilename_eq_ok, fun _ _ _ _ h h' => ?_,
    fun _ _ => parseFilename_eq_error, fun zeros version description => ?_⟩
  · exact filenameOf_inj h.separator_notMem h'.separator_notMem
  · exact parseFilename_eq_ok.mpr ⟨_, paddedNumeral_isNumeral zeros version,
      decimalValue_paddedNumeral zeros version, rfl⟩

example : parseFilename "0042_add_column.v2.sql.sql" = .ok (42, "add_column.v2.sql") := by
  decide +kernel

example : parseFilename "18446744073709551616_a.sql" =
    .error (.nonNumericVersion "18446744073709551616_a.sql" "18446744073709551616") := by
  decide +kernel

end SqlMigrations.Proofs
