import Mathlib.Data.List.TakeWhile
import SqlMigrations.Json.Token
import SqlMigrations.Proofs.FileNameGrammar

/-!
# The words of JSON texts

The grammar of single JSON tokens, said without the reader, and that the reader takes each word for
the token that it writes. A character of a string may be written as it is, by a letter, by its
number, or by the numbers of a surrogate pair. A number goes on for as long as it can, so it is read
whole only if nothing behind it could belong to it.
-/

namespace SqlMigrations.Proofs

open Json (Token)
open Json.Token (Unit16 afterExponent? afterFraction? charsOfUnits? digits? hexDigit? hexUnit?
  integerDigits? isHighSurrogate isLowSurrogate isSpace lex? number? shortEscape? stringUnits?)

/-- A list that is written element after element. -/
inductive InTurn {α : Type} (writes : α → List Char → Prop) : List α → List Char → Prop
  | nil : InTurn writes [] []
  | cons {a : α} {l : List α} {word rest : List Char} (first : writes a word)
      (later : InTurn writes l rest) : InTurn writes (a :: l) (word ++ rest)

/-- A hexadecimal digit in either case, and its value. -/
def IsHexDigit (c : Char) (n : Nat) : Prop :=
  "0123456789abcdef".toList[n]? = some c ∨ "0123456789ABCDEF".toList[n]? = some c

/-- The letters that stand for characters behind a backslash. -/
def letterEscapes : List (Char × Char) :=
  [('"', '"'), ('\\', '\\'), ('/', '/'), ('b', '\x08'), ('f', '\x0c'), ('n', '\n'), ('r', '\r'),
    ('t', '\t')]

/-- The written form of one step in a string: a character, or a number of 16 bits. -/
inductive UnitWriting : Unit16 → List Char → Prop
  | plain {c : Char} (unquoted : c ≠ '"') (unescaped : c ≠ '\\') (shown : 0x20 ≤ c.toNat) :
      UnitWriting (.char c) [c]
  | letter {e c : Char} (escape : (e, c) ∈ letterEscapes) : UnitWriting (.char c) ['\\', e]
  | number {a b c d : Char} {i j k l : Nat} (first : IsHexDigit a i) (second : IsHexDigit b j)
      (third : IsHexDigit c k) (fourth : IsHexDigit d l) :
      UnitWriting (.unit (((i * 16 + j) * 16 + k) * 16 + l)) ['\\', 'u', a, b, c, d]

/-- The written forms of a character in a string. -/
inductive CharWriting : Char → List Char → Prop
  | char {c : Char} {word : List Char} (written : UnitWriting (.char c) word) : CharWriting c word
  | number {c : Char} {word : List Char} (written : UnitWriting (.unit c.toNat) word) :
      CharWriting c word
  | pair {c : Char} {high low : Nat} {word word' : List Char}
      (high_range : 0xD800 ≤ high ∧ high < 0xDC00) (low_range : 0xDC00 ≤ low ∧ low < 0xE000)
      (value : c.toNat = 0x10000 + (high - 0xD800) * 0x400 + (low - 0xDC00))
      (first : UnitWriting (.unit high) word) (second : UnitWriting (.unit low) word') :
      CharWriting c (word ++ word')

/-- A run of ASCII digits that is not empty. -/
def IsDigits (cs : List Char) : Prop := cs ≠ [] ∧ ∀ c ∈ cs, c.isDigit = true

/-- Digits without a zero in front of others. -/
def IsInteger (cs : List Char) : Prop := IsDigits cs ∧ (cs.head? = some '0' → cs = ['0'])

/-- A fraction, or nothing. -/
def IsFraction (cs : List Char) : Prop := cs = [] ∨ ∃ ds, IsDigits ds ∧ cs = '.' :: ds

/-- An exponent, or nothing. -/
def IsExponent (cs : List Char) : Prop :=
  cs = [] ∨ ∃ e sign ds, (e = 'e' ∨ e = 'E') ∧ (sign = [] ∨ sign = ['+'] ∨ sign = ['-']) ∧
    IsDigits ds ∧ cs = e :: (sign ++ ds)

/-- The words that write a token. A string with half of a surrogate pair in it is well formed, and
writes no text. -/
inductive TokenWriting : Token → List Char → Prop
  | openBrace : TokenWriting .openBrace ['\x7b']
  | closeBrace : TokenWriting .closeBrace ['\x7d']
  | openBracket : TokenWriting .openBracket ['[']
  | closeBracket : TokenWriting .closeBracket [']']
  | colon : TokenWriting .colon [':']
  | comma : TokenWriting .comma [',']
  | null : TokenWriting .null ['n', 'u', 'l', 'l']
  | true : TokenWriting (.bool true) ['t', 'r', 'u', 'e']
  | false : TokenWriting (.bool false) ['f', 'a', 'l', 's', 'e']
  | natural {ds : List Char} (integer : IsInteger ds) :
      TokenWriting (.natural (decimalValue (String.ofList ds))) ds
  | otherNumber {sign ds fraction exponent : List Char} (signed : sign = [] ∨ sign = ['-'])
      (integer : IsInteger ds) (fractional : IsFraction fraction)
      (exponential : IsExponent exponent) (other : sign ≠ [] ∨ fraction ≠ [] ∨ exponent ≠ []) :
      TokenWriting .otherNumber (sign ++ (ds ++ (fraction ++ exponent)))
  | text {s : String} {body : List Char} (written : InTurn CharWriting s.toList body) :
      TokenWriting (.string (some s)) ('"' :: (body ++ ['"']))
  | unpaired {units : List Unit16} {body : List Char} (written : InTurn UnitWriting units body)
      (unpaired : ∀ cs, ¬ InTurn CharWriting cs body) :
      TokenWriting (.string none) ('"' :: (body ++ ['"']))

section Strings

variable {c e : Char} {n : Nat} {u : Unit16} {units : List Unit16} {cs body word rest : List Char}

instance : Decidable (IsHexDigit c n) := inferInstanceAs (Decidable (_ ∨ _))

lemma IsHexDigit.lt (h : IsHexDigit c n) : n < 16 := by
  rcases h with h | h
  · exact (List.getElem?_eq_some_iff.mp h).1
  · exact (List.getElem?_eq_some_iff.mp h).1

lemma isHexDigit_of_hexDigit? (h : hexDigit? c = some n) : IsHexDigit c n := by
  have hascii : ∀ k < 128, ∀ n ∈ hexDigit? (Char.ofNat k), IsHexDigit (Char.ofNat k) n := by
    decide +kernel
  have hlt : c.toNat < 128 := by
    unfold hexDigit? at h
    split at h
    · rename_i hdigit
      simp only [Char.isDigit, Bool.and_eq_true, decide_eq_true_eq,
        UInt32.le_iff_toNat_le] at hdigit
      exact Nat.lt_of_le_of_lt hdigit.2 (by decide)
    · split at h
      · rename_i hletter
        exact Nat.lt_of_le_of_lt hletter.2 (by decide)
      · split at h
        · rename_i hletter
          exact Nat.lt_of_le_of_lt hletter.2 (by decide)
        · cases h
  have hdigit := hascii c.toNat hlt n
  rw [Char.ofNat_toNat] at hdigit
  exact hdigit h

lemma hexDigit?_of_isHexDigit (h : IsHexDigit c n) : hexDigit? c = some n := by
  have hlower : ∀ k < 16, "0123456789abcdef".toList[k]?.bind hexDigit? = some k := by decide
  have hupper : ∀ k < 16, "0123456789ABCDEF".toList[k]?.bind hexDigit? = some k := by decide
  have hlt := h.lt
  rcases h with h | h
  · have hdigit := hlower n hlt
    rwa [h, Option.bind_some] at hdigit
  · have hdigit := hupper n hlt
    rwa [h, Option.bind_some] at hdigit

lemma hexDigit?_eq_some : hexDigit? c = some n ↔ IsHexDigit c n :=
  ⟨isHexDigit_of_hexDigit?, hexDigit?_of_isHexDigit⟩

lemma hexUnit?_eq_some {a b c d : Char} : hexUnit? a b c d = some n ↔
    ∃ i j k l, IsHexDigit a i ∧ IsHexDigit b j ∧ IsHexDigit c k ∧ IsHexDigit d l ∧
      n = ((i * 16 + j) * 16 + k) * 16 + l := by
  unfold hexUnit?
  simp only [Option.bind_eq_bind, Option.bind_eq_some_iff, hexDigit?_eq_some, Option.pure_def,
    Option.some.injEq]
  constructor
  · rintro ⟨i, hi, j, hj, k, hk, l, hl, rfl⟩
    exact ⟨i, j, k, l, hi, hj, hk, hl, rfl⟩
  · rintro ⟨i, j, k, l, hi, hj, hk, hl, rfl⟩
    exact ⟨i, hi, j, hj, k, hk, l, hl, rfl⟩

lemma shortEscape?_eq_some : shortEscape? e = some c ↔ (e, c) ∈ letterEscapes := by
  unfold shortEscape? letterEscapes
  split <;> simp_all [eq_comm]

/-- One step is taken off the front of a string, whatever comes behind it. -/
lemma stringUnits?_append (h : UnitWriting u word) (rest : List Char) :
    stringUnits? (word ++ rest) =
      (stringUnits? rest).bind fun (units, after) => some (u :: units, after) := by
  cases h with
  | plain hquote hescape hshown =>
    rw [List.singleton_append, stringUnits?,
      if_neg (not_or.mpr ⟨Nat.not_lt.mpr hshown, hescape⟩)]
    · rfl
    · exact hquote
    · exact fun _ _ _ _ _ h _ => hescape h
    · exact fun _ _ h _ => hescape h
  | @letter e c hletter =>
    have hu : e ≠ 'u' := by
      rintro rfl
      simp [letterEscapes] at hletter
    rw [List.cons_append, List.singleton_append, stringUnits?, shortEscape?_eq_some.mpr hletter]
    · rfl
    · exact fun _ _ _ _ _ h _ => hu h
  | number ha hb hc hd =>
    have hunit := hexUnit?_eq_some.mpr ⟨_, _, _, _, ha, hb, hc, hd, rfl⟩
    simp only [List.cons_append, List.nil_append]
    rw [stringUnits?, hunit]
    rfl

lemma stringUnits?_of_writing (h : InTurn UnitWriting units body) (rest : List Char) :
    stringUnits? (body ++ '"' :: rest) = some (units, rest) := by
  induction h with
  | nil => rfl
  | cons first _ ih => rw [List.append_assoc, stringUnits?_append first, ih, Option.bind_some]

lemma writing_of_stringUnits? (h : stringUnits? cs = some (units, rest)) :
    ∃ body, cs = body ++ '"' :: rest ∧ InTurn UnitWriting units body := by
  fun_induction stringUnits? cs generalizing units with
  | case1 => cases h
  | case2 =>
    simp only [Option.some.injEq, Prod.mk.injEq] at h
    obtain ⟨rfl, rfl⟩ := h
    exact ⟨[], rfl, .nil⟩
  | case3 a b c d later ih =>
    simp only [Option.bind_eq_bind, Option.bind_eq_some_iff, Option.pure_def, Option.some.injEq,
      Prod.mk.injEq] at h
    obtain ⟨value, hvalue, ⟨units', after⟩, hlater, rfl, rfl⟩ := h
    obtain ⟨i, j, k, l, ha, hb, hc, hd, rfl⟩ := hexUnit?_eq_some.mp hvalue
    obtain ⟨body, rfl, hbody⟩ := ih hlater
    exact ⟨_, rfl, .cons (.number ha hb hc hd) hbody⟩
  | case4 e later _ ih =>
    simp only [Option.bind_eq_bind, Option.bind_eq_some_iff, Option.pure_def, Option.some.injEq,
      Prod.mk.injEq] at h
    obtain ⟨c, hletter, ⟨units', after⟩, hlater, rfl, rfl⟩ := h
    obtain ⟨body, rfl, hbody⟩ := ih hlater
    exact ⟨_, rfl, .cons (.letter (shortEscape?_eq_some.mp hletter)) hbody⟩
  | case5 => simp_all
  | case6 c later hquote _ _ hshown ih =>
    obtain ⟨hcontrol, hescape⟩ := not_or.mp hshown
    simp only [Option.bind_eq_bind, Option.bind_eq_some_iff, Option.pure_def,
      Option.some.injEq, Prod.mk.injEq] at h
    obtain ⟨⟨units', after⟩, hlater, rfl, rfl⟩ := h
    obtain ⟨body, rfl, hbody⟩ := ih hlater
    exact ⟨_, rfl, .cons (.plain hquote hescape (Nat.not_lt.mp hcontrol)) hbody⟩

lemma UnitWriting.lt (h : UnitWriting (.unit n) word) : n < 0x10000 := by
  cases h with
  | number ha hb hc hd =>
    have := ha.lt
    have := hb.lt
    have := hc.lt
    have := hd.lt
    omega

/-- A character is no half of a surrogate pair. -/
lemma not_surrogate (c : Char) :
    isHighSurrogate c.toNat = false ∧ isLowSurrogate c.toNat = false := by
  have hvalid : c.toNat < 0xD800 ∨ 0xDFFF < c.toNat ∧ c.toNat < 0x110000 := c.valid
  simp only [isHighSurrogate, isLowSurrogate, Bool.and_eq_false_iff, decide_eq_false_iff_not]
  omega

lemma charsOfUnits?_number (hhigh : isHighSurrogate n = false) (hlow : isLowSurrogate n = false) :
    charsOfUnits? (.unit n :: units) = (charsOfUnits? units).map (Char.ofNat n :: ·) := by
  match units with
  | [] | .char _ :: _ => simp [charsOfUnits?, hhigh, hlow]
  | .unit _ :: _ => rw [charsOfUnits?, hhigh, hlow]; rfl

lemma charsOfUnits?_pair {high low : Nat} (hhigh : 0xD800 ≤ high ∧ high < 0xDC00)
    (hlow : 0xDC00 ≤ low ∧ low < 0xE000) : charsOfUnits? (.unit high :: .unit low :: units) =
      (charsOfUnits? units).map
        (Char.ofNat (0x10000 + (high - 0xD800) * 0x400 + (low - 0xDC00)) :: ·) := by
  rw [charsOfUnits?, if_pos (by simp [isHighSurrogate, hhigh]),
    if_pos (by simp [isLowSurrogate, hlow])]

lemma units_of_writing (h : InTurn CharWriting cs body) :
    ∃ units, InTurn UnitWriting units body ∧ charsOfUnits? units = some cs := by
  induction h with
  | nil => exact ⟨[], .nil, rfl⟩
  | @cons c l word rest first _ ih =>
    obtain ⟨units, hunits, hcs⟩ := ih
    cases first with
    | char hchar =>
      refine ⟨_, .cons hchar hunits, ?_⟩
      rw [charsOfUnits?, hcs, Option.map_some]
    | number hnumber =>
      refine ⟨_, .cons hnumber hunits, ?_⟩
      rw [charsOfUnits?_number (not_surrogate c).1 (not_surrogate c).2, hcs, Option.map_some,
        Char.ofNat_toNat]
    | pair hhigh hlow hvalue hfirst hsecond =>
      refine ⟨_, List.append_assoc _ _ rest ▸ InTurn.cons hfirst (.cons hsecond hunits), ?_⟩
      rw [charsOfUnits?_pair hhigh hlow, hcs, Option.map_some, ← hvalue, Char.ofNat_toNat]

lemma toNat_ofNat_of_valid (h : n < 0xD800 ∨ 0xDFFF < n ∧ n < 0x110000) :
    (Char.ofNat n).toNat = n := by
  have hvalid : n.isValidChar := h
  rw [Char.ofNat, dif_pos hvalid]
  rfl

lemma charWriting_number (h : UnitWriting (.unit n) word) (hhigh : ¬ isHighSurrogate n = true)
    (hlow : ¬ isLowSurrogate n = true) : CharWriting (Char.ofNat n) word := by
  have hlt := h.lt
  have hvalue : (Char.ofNat n).toNat = n := by
    apply toNat_ofNat_of_valid
    simp only [isHighSurrogate, isLowSurrogate, Bool.and_eq_true, decide_eq_true_eq] at hhigh hlow
    omega
  exact .number (hvalue.symm ▸ h)

lemma charWriting_pair {high low : Nat} {word' : List Char} (hhigh : isHighSurrogate high = true)
    (hlow : isLowSurrogate low = true) (h : UnitWriting (.unit high) word)
    (h' : UnitWriting (.unit low) word') :
    CharWriting (Char.ofNat (0x10000 + (high - 0xD800) * 0x400 + (low - 0xDC00)))
      (word ++ word') := by
  simp only [isHighSurrogate, isLowSurrogate, Bool.and_eq_true, decide_eq_true_eq] at hhigh hlow
  refine .pair hhigh hlow (toNat_ofNat_of_valid ?_) h h'
  omega

lemma writing_of_units (h : InTurn UnitWriting units body) (hcs : charsOfUnits? units = some cs) :
    InTurn CharWriting cs body := by
  fun_induction charsOfUnits? units generalizing body cs with
  | case1 =>
    cases h
    exact Option.some.inj hcs ▸ .nil
  | case2 c rest ih =>
    obtain ⟨cs', hcs', rfl⟩ := Option.map_eq_some_iff.mp hcs
    cases h with
    | cons first later => exact .cons (.char first) (ih later hcs')
  | case3 high low rest hhigh hlow ih =>
    obtain ⟨cs', hcs', rfl⟩ := Option.map_eq_some_iff.mp hcs
    cases h with
    | cons first later =>
      cases later with
      | cons second later =>
        rw [← List.append_assoc]
        exact .cons (charWriting_pair hhigh hlow first second) (ih later hcs')
  | case4 | case5 | case7 => cases hcs
  | case6 high low rest hhigh hlow ih =>
    obtain ⟨cs', hcs', rfl⟩ := Option.map_eq_some_iff.mp hcs
    cases h with
    | cons first later => exact .cons (charWriting_number first hhigh hlow) (ih later hcs')
  | case8 value rest _ hneither ih =>
    obtain ⟨cs', hcs', rfl⟩ := Option.map_eq_some_iff.mp hcs
    obtain ⟨hhigh, hlow⟩ : ¬ isHighSurrogate value = true ∧ ¬ isLowSurrogate value = true := by
      simpa using hneither
    cases h with
    | cons first later => exact .cons (charWriting_number first hhigh hlow) (ih later hcs')

/-- The token of a well-formed string is that of its text, if it writes one. -/
lemma tokenWriting_string (h : InTurn UnitWriting units body) :
    TokenWriting (.string ((charsOfUnits? units).map String.ofList)) ('"' :: (body ++ ['"'])) := by
  cases hcs : charsOfUnits? units with
  | some cs =>
    have hwritten := writing_of_units h hcs
    rw [← String.toList_ofList (l := cs)] at hwritten
    exact .text hwritten
  | none =>
    refine .unpaired h fun cs hwritten => ?_
    obtain ⟨units', hunits', hcs'⟩ := units_of_writing hwritten
    have hread := stringUnits?_of_writing h []
    rw [stringUnits?_of_writing hunits' [], Option.some.injEq, Prod.mk.injEq] at hread
    rw [hread.1, hcs] at hcs'
    cases hcs'

end Strings

section Numbers

variable {c : Char} {t : Token} {cs ds sign fraction exponent word rest : List Char}

/-- Nothing at the front could belong to a run of digits. -/
def NoDigit (rest : List Char) : Prop := ∀ c ∈ rest.head?, c.isDigit = false

/-- Nothing at the front could belong to a number. -/
def EndsNumber (rest : List Char) : Prop :=
  ∀ c ∈ rest.head?, c.isDigit = false ∧ c ≠ '.' ∧ c ≠ 'e' ∧ c ≠ 'E'

lemma digits?_append (h : IsDigits ds) (hrest : NoDigit rest) :
    digits? (ds ++ rest) = some (ds, rest) := by
  have hnone : rest.takeWhile Char.isDigit = [] ∧ rest.dropWhile Char.isDigit = rest := by
    cases rest with
    | nil => exact ⟨rfl, rfl⟩
    | cons c rest =>
      have hc : c.isDigit = false := hrest c rfl
      simp [hc]
  unfold digits?
  rw [List.takeWhile_append_of_pos h.2, List.dropWhile_append_of_pos h.2, hnone.1, hnone.2,
    List.append_nil]
  exact if_neg h.1

lemma digits?_eq_some (h : digits? cs = some (ds, rest)) : IsDigits ds ∧ cs = ds ++ rest := by
  unfold digits? at h
  dsimp only at h
  split at h
  · cases h
  · rename_i hne
    simp only [Option.some.injEq, Prod.mk.injEq] at h
    obtain ⟨rfl, rfl⟩ := h
    exact ⟨⟨hne, fun c hc => List.mem_takeWhile_imp hc⟩, List.takeWhile_append_dropWhile.symm⟩

lemma IsDigits.exists_cons (h : IsDigits ds) : ∃ c cs, ds = c :: cs ∧ c.isDigit = true := by
  cases ds with
  | nil => exact absurd rfl h.1
  | cons c cs => exact ⟨c, cs, rfl, h.2 c List.mem_cons_self⟩

lemma EndsNumber.noDigit (h : EndsNumber rest) : NoDigit rest := fun c hc => (h c hc).1

lemma IsExponent.noDigit (h : IsExponent exponent) (hrest : EndsNumber rest) :
    NoDigit (exponent ++ rest) := by
  rcases h with rfl | ⟨e, sign, ds, he, -, -, rfl⟩
  · exact hrest.noDigit
  · intro c hc
    obtain rfl : e = c := by simpa using hc
    rcases he with rfl | rfl <;> rfl

lemma IsFraction.noDigit (h : IsFraction fraction) (hrest : NoDigit rest) :
    NoDigit (fraction ++ rest) := by
  rcases h with rfl | ⟨ds, -, rfl⟩
  · exact hrest
  · intro c hc
    obtain rfl : '.' = c := by simpa using hc
    rfl

lemma integerDigits?_append (h : IsInteger ds) (hrest : NoDigit rest) :
    integerDigits? (ds ++ rest) = some (ds, rest) := by
  unfold integerDigits?
  rw [digits?_append h.1 hrest]
  exact if_neg fun hzero => hzero.2 (h.2 hzero.1)

lemma integerDigits?_eq_some (h : integerDigits? cs = some (ds, rest)) :
    IsInteger ds ∧ cs = ds ++ rest := by
  unfold integerDigits? at h
  simp only [Option.bind_eq_bind, Option.bind_eq_some_iff] at h
  obtain ⟨⟨run, after⟩, hdigits, h⟩ := h
  split at h
  · cases h
  · rename_i hzero
    simp only [Option.some.injEq, Prod.mk.injEq] at h
    obtain ⟨rfl, rfl⟩ := h
    obtain ⟨hrun, hcs⟩ := digits?_eq_some hdigits
    exact ⟨⟨hrun, fun hhead => by_contra fun hne => hzero ⟨hhead, hne⟩⟩, hcs⟩

lemma afterFraction?_append (h : IsFraction fraction) (hrest : NoDigit rest)
    (hpoint : rest.head? ≠ some '.') :
    afterFraction? (fraction ++ rest) = some (!fraction.isEmpty, rest) := by
  rcases h with rfl | ⟨ds, hds, rfl⟩
  · rw [List.nil_append, afterFraction?]
    · rfl
    · rintro rest' rfl
      exact hpoint rfl
  · rw [List.cons_append, afterFraction?, digits?_append hds hrest]
    rfl

lemma afterFraction?_eq_some {given : Bool} (h : afterFraction? cs = some (given, rest)) :
    ∃ fraction, IsFraction fraction ∧ cs = fraction ++ rest ∧ given = !fraction.isEmpty := by
  unfold afterFraction? at h
  split at h
  · obtain ⟨⟨ds, after⟩, hdigits, heq⟩ := Option.map_eq_some_iff.mp h
    simp only [Prod.mk.injEq] at heq
    obtain ⟨rfl, rfl⟩ := heq
    obtain ⟨hds, rfl⟩ := digits?_eq_some hdigits
    exact ⟨_, .inr ⟨ds, hds, rfl⟩, rfl, rfl⟩
  · simp only [Option.some.injEq, Prod.mk.injEq] at h
    obtain ⟨rfl, rfl⟩ := h
    exact ⟨[], .inl rfl, rfl, rfl⟩

lemma afterExponent?_append (h : IsExponent exponent) (hrest : EndsNumber rest) :
    afterExponent? (exponent ++ rest) = some (!exponent.isEmpty, rest) := by
  rcases h with rfl | ⟨e, sign, ds, he, hsign, hds, rfl⟩
  · cases rest with
    | nil => rfl
    | cons c rest =>
      obtain ⟨-, -, he, hE⟩ := hrest c rfl
      unfold afterExponent?
      exact if_neg (not_or.mpr ⟨he, hE⟩)
  · have hread := digits?_append hds hrest.noDigit
    obtain ⟨c, cs, rfl, hc⟩ := hds.exists_cons
    unfold afterExponent?
    dsimp only [List.cons_append]
    rw [if_pos he]
    rcases hsign with rfl | rfl | rfl
    · have hunsigned : ¬ (c = '+' ∨ c = '-') := by
        rintro (rfl | rfl)
        · cases hc
        · cases hc
      simp only [List.nil_append, List.cons_append, if_neg hunsigned]
      exact congrArg (Option.map _) hread
    · exact congrArg (Option.map _) hread
    · exact congrArg (Option.map _) hread

lemma afterExponent?_eq_some {given : Bool} (h : afterExponent? cs = some (given, rest)) :
    ∃ exponent, IsExponent exponent ∧ cs = exponent ++ rest ∧ given = !exponent.isEmpty := by
  cases cs with
  | nil =>
    simp only [afterExponent?, Option.some.injEq, Prod.mk.injEq] at h
    obtain ⟨rfl, rfl⟩ := h
    exact ⟨[], .inl rfl, rfl, rfl⟩
  | cons c later =>
    unfold afterExponent? at h
    dsimp only at h
    split at h
    · rename_i he
      obtain ⟨⟨ds, after⟩, hdigits, heq⟩ := Option.map_eq_some_iff.mp h
      simp only [Prod.mk.injEq] at heq
      obtain ⟨rfl, rfl⟩ := heq
      obtain ⟨hds, hlater⟩ := digits?_eq_some hdigits
      split at hlater
      · rename_i s more
        split at hlater
        · rename_i hs
          refine ⟨c :: ([s] ++ ds), .inr ⟨c, [s], ds, he, ?_, hds, rfl⟩, by simp [hlater], rfl⟩
          simpa using hs
        · exact ⟨c :: ([] ++ ds), .inr ⟨c, [], ds, he, .inl rfl, hds, rfl⟩, by simp [hlater], rfl⟩
      · simp only [List.nil_eq, List.append_eq_nil_iff] at hlater
        exact absurd hlater.1 hds.1
    · simp only [Option.some.injEq, Prod.mk.injEq] at h
      obtain ⟨rfl, rfl⟩ := h
      exact ⟨[], .inl rfl, rfl, rfl⟩

/-- The token of a number with these parts. -/
def numberToken (sign ds fraction exponent : List Char) : Token :=
  if sign = [] ∧ fraction = [] ∧ exponent = [] then .natural (decimalValue (String.ofList ds))
  else .otherNumber

lemma tokenWriting_number (hsign : sign = [] ∨ sign = ['-']) (h : IsInteger ds)
    (hfraction : IsFraction fraction) (hexponent : IsExponent exponent) :
    TokenWriting (numberToken sign ds fraction exponent)
      (sign ++ (ds ++ (fraction ++ exponent))) := by
  unfold numberToken
  split
  · rename_i hnone
    obtain ⟨rfl, rfl, rfl⟩ := hnone
    simpa using TokenWriting.natural h
  · rename_i hsome
    refine .otherNumber hsign h hfraction hexponent ?_
    tauto

/-- What is read behind the sign of a number. -/
def unsignedNumber? (negative : Bool) (cs : List Char) : Option (Token × List Char) := do
  let (run, rest) ← integerDigits? cs
  let (fraction, rest) ← afterFraction? rest
  let (exponent, rest) ← afterExponent? rest
  if negative || fraction || exponent then return (.otherNumber, rest)
  else return (.natural (Nat.ofDigitChars 10 run 0), rest)

lemma number?_signed (cs : List Char) : number? ('-' :: cs) = unsignedNumber? true cs := rfl

lemma number?_unsigned (h : cs.head? ≠ some '-') : number? cs = unsignedNumber? false cs := by
  unfold number?
  split
  rename_i heq
  split at heq
  · exact absurd rfl h
  · simp only [Prod.mk.injEq] at heq
    obtain ⟨rfl, rfl⟩ := heq
    rfl

lemma unsignedNumber?_append (negative : Bool) (h : IsInteger ds) (hfraction : IsFraction fraction)
    (hexponent : IsExponent exponent) (hrest : EndsNumber rest) :
    unsignedNumber? negative (ds ++ (fraction ++ (exponent ++ rest))) =
      some (if negative || !fraction.isEmpty || !exponent.isEmpty then .otherNumber
        else .natural (Nat.ofDigitChars 10 ds 0), rest) := by
  have hexponentEnds := hexponent.noDigit hrest
  have hpoint : (exponent ++ rest).head? ≠ some '.' := by
    rcases hexponent with rfl | ⟨e, sign, ds, he, -, -, rfl⟩
    · exact fun hhead => (hrest _ hhead).2.1 rfl
    · rcases he with rfl | rfl <;> simp
  have hinteger := integerDigits?_append h (hfraction.noDigit hexponentEnds)
  have hfractionRead := afterFraction?_append hfraction hexponentEnds hpoint
  have hexponentRead := afterExponent?_append hexponent hrest
  unfold unsignedNumber?
  simp only [hinteger, hfractionRead, hexponentRead, Option.bind_eq_bind, Option.bind_some]
  split <;> rfl

lemma unsignedNumber?_eq_some {negative : Bool}
    (h : unsignedNumber? negative cs = some (t, rest)) :
    ∃ ds fraction exponent, IsInteger ds ∧ IsFraction fraction ∧ IsExponent exponent ∧
      cs = ds ++ (fraction ++ (exponent ++ rest)) ∧
      t = if negative || !fraction.isEmpty || !exponent.isEmpty then .otherNumber
        else .natural (Nat.ofDigitChars 10 ds 0) := by
  unfold unsignedNumber? at h
  simp only [Option.bind_eq_bind, Option.bind_eq_some_iff] at h
  obtain ⟨⟨ds, rest₁⟩, hds, ⟨given, rest₂⟩, hgiven, ⟨given', rest₃⟩, hgiven', h⟩ := h
  obtain ⟨hinteger, rfl⟩ := integerDigits?_eq_some hds
  obtain ⟨fraction, hfraction, rfl, rfl⟩ := afterFraction?_eq_some hgiven
  obtain ⟨exponent, hexponent, rfl, rfl⟩ := afterExponent?_eq_some hgiven'
  dsimp only at h
  refine ⟨ds, fraction, exponent, hinteger, hfraction, hexponent, ?_⟩
  split at h
  · rename_i hother
    simp only [Option.pure_def, Option.some.injEq, Prod.mk.injEq] at h
    obtain ⟨rfl, rfl⟩ := h
    exact ⟨rfl, (if_pos hother).symm⟩
  · rename_i hnatural
    simp only [Option.pure_def, Option.some.injEq, Prod.mk.injEq] at h
    obtain ⟨rfl, rfl⟩ := h
    exact ⟨rfl, (if_neg hnatural).symm⟩

lemma numberToken_eq (negative : Bool) (hsign : negative = !sign.isEmpty) :
    numberToken sign ds fraction exponent =
      if negative || !fraction.isEmpty || !exponent.isEmpty then .otherNumber
      else .natural (Nat.ofDigitChars 10 ds 0) := by
  unfold numberToken decimalValue
  rw [hsign, String.toList_ofList, ← ofDigitChars_eq_ofDigits]
  cases sign <;> cases fraction <;> cases exponent <;> rfl

lemma number?_append (hsign : sign = [] ∨ sign = ['-']) (h : IsInteger ds)
    (hfraction : IsFraction fraction) (hexponent : IsExponent exponent) (hrest : EndsNumber rest) :
    number? (sign ++ (ds ++ (fraction ++ (exponent ++ rest)))) =
      some (numberToken sign ds fraction exponent, rest) := by
  rcases hsign with rfl | rfl
  · have hhead : (ds ++ (fraction ++ (exponent ++ rest))).head? ≠ some '-' := by
      obtain ⟨c, cs, rfl, hc⟩ := h.1.exists_cons
      intro hminus
      rw [Option.some.inj hminus] at hc
      cases hc
    rw [List.nil_append, number?_unsigned hhead,
      unsignedNumber?_append false h hfraction hexponent hrest, numberToken_eq false rfl]
  · rw [List.singleton_append, number?_signed,
      unsignedNumber?_append true h hfraction hexponent hrest, numberToken_eq true rfl]

lemma number?_eq_some (h : number? cs = some (t, rest)) :
    ∃ word, cs = word ++ rest ∧ TokenWriting t word := by
  by_cases hminus : cs.head? = some '-'
  · obtain ⟨later, rfl⟩ := List.head?_eq_some_iff.mp hminus
    rw [number?_signed] at h
    obtain ⟨ds, fraction, exponent, hds, hfraction, hexponent, rfl, rfl⟩ :=
      unsignedNumber?_eq_some h
    refine ⟨['-'] ++ (ds ++ (fraction ++ exponent)), by simp, ?_⟩
    have hwritten := tokenWriting_number (.inr rfl) hds hfraction hexponent
    rwa [numberToken_eq true rfl] at hwritten
  · rw [number?_unsigned hminus] at h
    obtain ⟨ds, fraction, exponent, hds, hfraction, hexponent, rfl, rfl⟩ :=
      unsignedNumber?_eq_some h
    refine ⟨[] ++ (ds ++ (fraction ++ exponent)), by simp, ?_⟩
    have hwritten := tokenWriting_number (.inl rfl) hds hfraction hexponent
    rwa [numberToken_eq false rfl] at hwritten

end Numbers

section Words

variable {c : Char} {t : Token} {cs word rest : List Char}

/-- Whether the words of a token go on for as long as they can. -/
def isNumber : Token → Bool
  | .natural _ | .otherNumber => true
  | _ => false

lemma lex?_eq_number? (h : c.isDigit = true ∨ c = '-') : lex? c rest = number? (c :: rest) := by
  unfold lex?
  split
  all_goals first | rfl | exact absurd h (by decide)

lemma isSpace_eq_false (h : c.isDigit = true ∨ c = '-') : isSpace c = false := by
  rcases h with h | rfl
  · have hbounds := isDigit_iff.mp h
    by_contra hspace
    simp only [isSpace, Bool.not_eq_false, Bool.or_eq_true, beq_iff_eq] at hspace
    rcases hspace with ((rfl | rfl) | rfl) | rfl <;> cases h
  · rfl

lemma lex?_of_number {sign ds fraction exponent : List Char} (hsign : sign = [] ∨ sign = ['-'])
    (h : IsInteger ds) (hfraction : IsFraction fraction) (hexponent : IsExponent exponent)
    (hrest : EndsNumber rest) :
    ∃ c later, sign ++ (ds ++ (fraction ++ exponent)) = c :: later ∧ isSpace c = false ∧
      lex? c (later ++ rest) = some (numberToken sign ds fraction exponent, rest) := by
  have hread := number?_append hsign h hfraction hexponent hrest
  obtain ⟨d, cs, rfl, hd⟩ := h.1.exists_cons
  obtain ⟨c, later, hword, hc⟩ : ∃ c later,
      sign ++ (d :: cs ++ (fraction ++ exponent)) = c :: later ∧ (c.isDigit = true ∨ c = '-') := by
    rcases hsign with rfl | rfl
    · exact ⟨d, cs ++ (fraction ++ exponent), rfl, .inl hd⟩
    · exact ⟨'-', d :: cs ++ (fraction ++ exponent), rfl, .inr rfl⟩
  refine ⟨c, later, hword, isSpace_eq_false hc, ?_⟩
  rw [lex?_eq_number? hc, ← hread, ← List.cons_append, ← hword]
  simp only [List.append_assoc]

/-- A word is read as the token that it writes. -/
lemma lex?_of_writing (h : TokenWriting t word) (hrest : isNumber t = true → EndsNumber rest) :
    ∃ c later, word = c :: later ∧ isSpace c = false ∧ lex? c (later ++ rest) = some (t, rest) := by
  cases h with
  | openBrace | closeBrace | openBracket | closeBracket | colon | comma | null | true | false =>
    exact ⟨_, _, rfl, rfl, rfl⟩
  | natural h =>
    simpa [numberToken] using
      lex?_of_number (.inl rfl) h (.inl rfl) (.inl rfl) (hrest rfl)
  | @otherNumber sign ds fraction exponent hsign h hfraction hexponent hother =>
    have htoken : numberToken sign ds fraction exponent = .otherNumber := if_neg (by tauto)
    rw [← htoken]
    exact lex?_of_number hsign h hfraction hexponent (hrest rfl)
  | text h =>
    obtain ⟨units, hunits, hcs⟩ := units_of_writing h
    refine ⟨_, _, rfl, rfl, ?_⟩
    simp only [lex?, List.append_assoc, List.singleton_append, stringUnits?_of_writing hunits]
    simp [hcs]
  | unpaired h hnot =>
    refine ⟨_, _, rfl, rfl, ?_⟩
    rename_i units body
    have hnone : charsOfUnits? units = none := by
      rw [Option.eq_none_iff_forall_ne_some]
      exact fun cs hcs => hnot cs (writing_of_units h hcs)
    simp only [lex?, List.append_assoc, List.singleton_append, stringUnits?_of_writing h]
    simp [hnone]

/-- What is read as a token is a word that writes it. -/
lemma writing_of_lex? (h : lex? c cs = some (t, rest)) :
    ∃ word, c :: cs = word ++ rest ∧ TokenWriting t word := by
  have hword : ∀ {t' : Token} {word tail : List Char},
      TokenWriting t' word → c :: cs = word ++ tail →
      some (t', tail) = some (t, rest) → ∃ word, c :: cs = word ++ rest ∧ TokenWriting t word := by
    intro t' word tail hwritten hcs heq
    simp only [Option.some.injEq, Prod.mk.injEq] at heq
    obtain ⟨rfl, rfl⟩ := heq
    exact ⟨word, hcs, hwritten⟩
  unfold lex? at h
  split at h
  · exact hword .openBrace rfl h
  · exact hword .closeBrace rfl h
  · exact hword .openBracket rfl h
  · exact hword .closeBracket rfl h
  · exact hword .colon rfl h
  · exact hword .comma rfl h
  · obtain ⟨⟨units, after⟩, hunits, heq⟩ := Option.map_eq_some_iff.mp h
    obtain ⟨body, rfl, hbody⟩ := writing_of_stringUnits? hunits
    exact hword (tokenWriting_string hbody) (by simp) (congrArg some heq)
  · split at h
    · exact hword .null rfl h
    · cases h
  · split at h
    · exact hword .true rfl h
    · cases h
  · split at h
    · exact hword .false rfl h
    · cases h
  · exact number?_eq_some h

end Words

end SqlMigrations.Proofs
