import SqlMigrations.Json.Writer
import SqlMigrations.Proofs.JsonTexts

/-!
# Written JSON

A compact text writes the value of its document by the grammar of JSON texts, so it is read back as
that value.
-/

namespace SqlMigrations.Proofs

open Json (Doc Token escape hexDigit parse? quote separate)

mutual

/-- The value that a document stands for. -/
def docValue : Doc → Json
  | .null => .null
  | .bool value => .bool value
  | .natural value => .natural value
  | .string text => .string (some text)
  | .array items => .array (itemValues items)
  | .object fields => .object (fieldValues fields)

def itemValues : List Doc → List Json
  | [] => []
  | item :: items => docValue item :: itemValues items

def fieldValues : List (String × Doc) → List (Option String × Json)
  | [] => []
  | (key, value) :: fields => (some key, docValue value) :: fieldValues fields

end

lemma isHexDigit_hexDigit {n : Nat} (h : n < 16) : IsHexDigit (hexDigit n) n := by
  have hall : ∀ k < 16, IsHexDigit (hexDigit k) k := by decide
  exact hall n h

lemma charWriting_escape (c : Char) : CharWriting c (escape c) := by
  have hletter : ∀ {e c' : Char}, (e, c') ∈ letterEscapes → c = c' → CharWriting c ['\\', e] :=
    fun hmem hc => hc ▸ .char (.letter hmem)
  unfold escape
  split_ifs with hquote hslash hline hreturn htab hback hform hcontrol
  · exact hletter (by decide) hquote
  · exact hletter (by decide) hslash
  · exact hletter (by decide) hline
  · exact hletter (by decide) hreturn
  · exact hletter (by decide) htab
  · exact hletter (by decide) hback
  · exact hletter (by decide) hform
  · have hvalue : ((0 * 16 + 0) * 16 + c.toNat / 16) * 16 + c.toNat % 16 = c.toNat := by omega
    have hzero : IsHexDigit '0' 0 := by decide
    have hwritten := UnitWriting.number hzero hzero
      (isHexDigit_hexDigit (n := c.toNat / 16) (by omega))
      (isHexDigit_hexDigit (n := c.toNat % 16) (by omega))
    rw [hvalue] at hwritten
    exact .number hwritten
  · exact .char (.plain hquote hslash (Nat.not_lt.mp hcontrol))

lemma tokenWriting_quote (text : String) : TokenWriting (.string (some text)) (quote text) := by
  refine .text ?_
  induction text.toList with
  | nil => exact .nil
  | cons c cs ih => exact .cons (charWriting_escape c) ih

lemma head?_digits {n : Nat} (h : (Decimal.digits n).head? = some '0') :
    Decimal.digits n = ['0'] := by
  unfold Decimal.digits at h ⊢
  induction n using Nat.strong_induction_on with
  | _ n ih =>
    by_cases hlt : n < 10
    · rw [Nat.toDigits_of_lt_base hlt] at h ⊢
      rw [Option.some.inj h]
    · have hge : 10 ≤ n := Nat.not_lt.mp hlt
      rw [Nat.toDigits_of_base_le (by decide) hge, List.head?_append,
        List.head?_eq_some_head Nat.toDigits_ne_nil, Option.some_or,
        ← List.head?_eq_some_head Nat.toDigits_ne_nil] at h
      have hzero := congrArg (Nat.ofDigitChars 10 · 0) (ih (n / 10) (by omega) h)
      rw [Nat.ofDigitChars_ten_toDigits] at hzero
      have hsmall : n / 10 = 0 := hzero
      omega

lemma tokenWriting_digits (n : Nat) : TokenWriting (.natural n) (Decimal.digits n) := by
  have hdigits : IsDigits (Decimal.digits n) :=
    ⟨Nat.toDigits_ne_nil, fun c hc => Nat.isDigit_of_mem_toDigits (by decide) (by decide) hc⟩
  have hvalue : decimalValue (String.ofList (Decimal.digits n)) = n := by
    unfold decimalValue Decimal.digits
    rw [← ofDigitChars_eq_ofDigits, String.toList_ofList, Nat.ofDigitChars_ten_toDigits]
  have hwritten := TokenWriting.natural ⟨hdigits, head?_digits⟩
  rwa [hvalue] at hwritten

section Texts

variable {t : Token} {ts : List Token} {w rest : List Char}

lemma TokensWriting.prepend (h : TokenWriting t w) (hlater : TokensWriting ts rest) :
    TokensWriting (t :: ts) (w ++ rest) :=
  .cons (List.forall_mem_nil _) h hlater

lemma separate_cons (sep part : List Char) (parts : List (List Char)) :
    separate sep (part :: parts) = part ++ parts.flatMap fun part => sep ++ part := by
  induction parts generalizing part with
  | nil => simp [separate]
  | cons next parts ih =>
    rw [separate, ih, List.flatMap_cons, List.append_assoc, List.append_assoc]
    nofun

/-- Parts of a compact text with a comma in front of each. -/
def behindCommas (parts : List (List Char)) : List Char := parts.flatMap fun part => [','] ++ part

mutual

/-- The compact text of a document writes its value, whatever comes behind. -/
lemma compact_writing (d : Doc) {ts : List Token} {rest : List Char}
    (hlater : TokensWriting ts rest) :
    TokensWriting (tokens (docValue d) ++ ts) (d.compactChars ++ rest) := by
  match d with
  | .null => exact .prepend .null hlater
  | .bool true => exact .prepend .true hlater
  | .bool false => exact .prepend .false hlater
  | .natural n => exact .prepend (tokenWriting_digits n) hlater
  | .string text => exact .prepend (tokenWriting_quote text) hlater
  | .array [] =>
    have hrest := hlater.prepend .closeBracket
    simpa [docValue, itemValues, tokens, Doc.compactChars, Doc.compactItems, separate] using
      hrest.prepend .openBracket
  | .object [] =>
    have hrest := hlater.prepend .closeBrace
    simpa [docValue, fieldValues, tokens, Doc.compactChars, Doc.compactFields, separate] using
      hrest.prepend .openBrace
  | .array (item :: items) =>
    have hrest := compact_writing item (compactItems_writing items hlater)
    rw [docValue, itemValues, tokens, Doc.compactChars, Doc.compactItems, separate_cons]
    simpa [behindCommas] using hrest.prepend .openBracket
  | .object ((key, value) :: fields) =>
    have hrest := compact_writing value (compactFields_writing fields hlater)
    rw [docValue, fieldValues, tokens, Doc.compactChars, Doc.compactFields, separate_cons]
    simpa [behindCommas] using
      ((hrest.prepend .colon).prepend (tokenWriting_quote key)).prepend .openBrace

lemma compactItems_writing (items : List Doc) {ts : List Token} {rest : List Char}
    (hlater : TokensWriting ts rest) :
    TokensWriting (itemTokens (itemValues items) ++ ts)
      (behindCommas (Doc.compactItems items) ++ ([']'] ++ rest)) := by
  match items with
  | [] =>
    simpa [itemTokens, itemValues, Doc.compactItems, behindCommas] using
      hlater.prepend .closeBracket
  | item :: items =>
    have hrest := compact_writing item (compactItems_writing items hlater)
    rw [itemValues, itemTokens, Doc.compactItems]
    simpa [behindCommas] using hrest.prepend .comma

lemma compactFields_writing (fields : List (String × Doc)) {ts : List Token} {rest : List Char}
    (hlater : TokensWriting ts rest) :
    TokensWriting (fieldTokens (fieldValues fields) ++ ts)
      (behindCommas (Doc.compactFields fields) ++ (['\x7d'] ++ rest)) := by
  match fields with
  | [] =>
    simpa [fieldTokens, fieldValues, Doc.compactFields, behindCommas] using
      hlater.prepend .closeBrace
  | (key, value) :: fields =>
    have hrest := compact_writing value (compactFields_writing fields hlater)
    rw [fieldValues, fieldTokens, Doc.compactFields]
    simpa [behindCommas] using
      ((hrest.prepend .colon).prepend (tokenWriting_quote key)).prepend .comma

end

lemma writes_compact (d : Doc) : Writes (docValue d) d.compact := by
  unfold Writes Doc.compact
  rw [String.toList_ofList, ← List.append_nil (tokens _), ← List.append_nil d.compactChars]
  exact compact_writing d (.nil (by simp))

/-- The compact text of a document is read back as its value. -/
theorem parse?_compact (d : Doc) : parse? d.compact = some (docValue d) :=
  parse?_eq_some.mpr (writes_compact d)

end Texts

end SqlMigrations.Proofs
