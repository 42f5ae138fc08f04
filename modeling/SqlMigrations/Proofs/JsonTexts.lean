import SqlMigrations.Json.Reader
import SqlMigrations.Proofs.JsonWords

/-!
# JSON texts

The grammar of whole JSON texts: a value has its tokens, and a text writes them word by word with
white space around. A text is read as a value if and only if it writes that value. That it is not
read otherwise rests on an invariant of the reader, which always knows the tokens that it has taken.
-/

namespace SqlMigrations.Proofs

open Json (Expect Frame Token parse?)
open Json.Token (all? allWithin? isSpace lex?)
open Json.Expect (startValue? step?)

mutual

/-- The tokens of a value. -/
def tokens : Json → List Token
  | .null => [.null]
  | .bool value => [.bool value]
  | .natural value => [.natural value]
  | .otherNumber => [.otherNumber]
  | .string text => [.string text]
  | .array [] => [.openBracket, .closeBracket]
  | .array (item :: items) => .openBracket :: (tokens item ++ itemTokens items)
  | .object [] => [.openBrace, .closeBrace]
  | .object ((key, value) :: fields) =>
    .openBrace :: .string key :: .colon :: (tokens value ++ fieldTokens fields)

/-- The tokens behind an item, up to the end of its array. -/
def itemTokens : List Json → List Token
  | [] => [.closeBracket]
  | item :: items => .comma :: (tokens item ++ itemTokens items)

/-- The tokens behind a field, up to the end of its object. -/
def fieldTokens : List (Option String × Json) → List Token
  | [] => [.closeBrace]
  | (key, value) :: fields =>
    .comma :: .string key :: .colon :: (tokens value ++ fieldTokens fields)

end

/-- A text of tokens: white space may stand before each of them and after the last one. -/
inductive TokensWriting : List Token → List Char → Prop
  | nil {space : List Char} (blank : ∀ c ∈ space, isSpace c = true) : TokensWriting [] space
  | cons {space word rest : List Char} {t : Token} {ts : List Token}
      (blank : ∀ c ∈ space, isSpace c = true) (first : TokenWriting t word)
      (later : TokensWriting ts rest) : TokensWriting (t :: ts) (space ++ (word ++ rest))

/-- A text that writes a value. -/
def Writes (v : Json) (text : String) : Prop := TokensWriting (tokens v) text.toList

/-! ### Cutting a text into tokens -/

section Cutting

variable {c : Char} {t : Token} {ts ts' : List Token} {cs rest : List Char} {bound : Nat}

/-- Tokens that may stand behind a value, or none. -/
def Follows (ts : List Token) : Prop :=
  ∀ t ∈ ts.head?, t = .comma ∨ t = .closeBracket ∨ t = .closeBrace

/-- Tokens of which no number stands before another value. -/
def Separated : List Token → Prop
  | [] => True
  | t :: ts => (isNumber t = true → Follows ts) ∧ Separated ts

lemma allWithin?_space {space : List Char} (hspace : ∀ c ∈ space, isSpace c = true)
    (h : space.length ≤ bound) :
    allWithin? bound (space ++ rest) = allWithin? (bound - space.length) rest := by
  induction space generalizing bound with
  | nil => rfl
  | cons c space ih =>
    cases bound with
    | zero => cases h
    | succ bound =>
      rw [List.cons_append, allWithin?, if_pos (hspace c List.mem_cons_self),
        ih (fun c hc => hspace c (List.mem_cons_of_mem _ hc)) (Nat.le_of_succ_le_succ h),
        List.length_cons, Nat.add_sub_add_right]

/-- White space and what may stand behind a value end a number. -/
lemma TokensWriting.endsNumber (h : TokensWriting ts cs) (hfollows : Follows ts) :
    EndsNumber cs := by
  have hspace : ∀ c, isSpace c = true → c.isDigit = false ∧ c ≠ '.' ∧ c ≠ 'e' ∧ c ≠ 'E' := by
    intro c hc
    simp only [isSpace, Bool.or_eq_true, beq_iff_eq] at hc
    rcases hc with ((rfl | rfl) | rfl) | rfl <;> decide
  cases h with
  | nil hblank => exact fun c hc => hspace c (hblank c (List.mem_of_mem_head? hc))
  | @cons space word rest t ts hblank hword =>
    cases space with
    | cons c space =>
      intro c' hc'
      obtain rfl : c = c' := by simpa using hc'
      exact hspace c (hblank c List.mem_cons_self)
    | nil =>
      rcases hfollows t rfl with rfl | rfl | rfl
      all_goals
        cases hword
        intro c hc
        obtain rfl := Option.some.inj hc
        decide

/-- A text is cut into the tokens that it writes. -/
lemma allWithin?_of_writing (h : TokensWriting ts cs) (hseparated : Separated ts)
    (hbound : cs.length ≤ bound) : allWithin? bound cs = some ts := by
  induction h generalizing bound with
  | @nil space hblank =>
    rw [← List.append_nil space, allWithin?_space hblank hbound, allWithin?]
  | @cons space word rest t ts hblank hword hlater ih =>
    obtain ⟨hnumber, hseparated⟩ := hseparated
    obtain ⟨c, later, rfl, hc, hlex⟩ :=
      lex?_of_writing hword fun h => hlater.endsNumber (hnumber h)
    simp only [List.length_append, List.length_cons] at hbound
    rw [allWithin?_space hblank (by omega)]
    obtain ⟨bound', hbound'⟩ : ∃ bound', bound - space.length = bound' + 1 :=
      ⟨bound - space.length - 1, by omega⟩
    have hread : allWithin? bound' rest = some ts := ih hseparated (by omega)
    rw [hbound', List.cons_append, allWithin?, if_neg (by simp [hc]), hlex]
    simp only [Option.bind_eq_bind, Option.bind_some, hread, Option.pure_def]

lemma TokensWriting.space (h : TokensWriting ts cs) (hc : isSpace c = true) :
    TokensWriting ts (c :: cs) := by
  have hblank : ∀ {space : List Char}, (∀ c ∈ space, isSpace c = true) →
      ∀ c' ∈ c :: space, isSpace c' = true :=
    fun hspace => List.forall_mem_cons.mpr ⟨hc, hspace⟩
  cases h with
  | nil hspace => exact .nil (hblank hspace)
  | cons hspace hword hlater => exact .cons (hblank hspace) hword hlater

/-- The tokens into which a text is cut are written by it. -/
lemma writing_of_allWithin? (h : allWithin? bound cs = some ts) : TokensWriting ts cs := by
  fun_induction allWithin? bound cs generalizing ts with
  | case1 => exact Option.some.inj h ▸ .nil (by simp)
  | case2 => cases h
  | case3 bound c cs hc ih => exact (ih h).space hc
  | case4 bound c cs hc ih =>
    simp only [Option.bind_eq_bind, Option.bind_eq_some_iff, Option.pure_def,
      Option.some.injEq] at h
    obtain ⟨⟨t, rest⟩, hlex, ts', hts', rfl⟩ := h
    obtain ⟨word, hcs, hword⟩ := writing_of_lex? hlex
    rw [hcs]
    exact .cons (List.forall_mem_nil _) hword (ih rest hts')

lemma all?_eq_some (hseparated : Separated ts) : all? cs = some ts ↔ TokensWriting ts cs :=
  ⟨writing_of_allWithin?, fun h => allWithin?_of_writing h hseparated le_rfl⟩

end Cutting

/-! ### Building a value from its tokens -/

section Building

variable {s s' : Expect} {t : Token} {v : Json} {stack : List Frame}

lemma follows_itemTokens (items : List Json) {ts : List Token} :
    Follows (itemTokens items ++ ts) := by
  intro t ht
  cases items with
  | nil => exact .inr (.inl (Option.some.inj ht).symm)
  | cons item items => exact .inl (Option.some.inj ht).symm

lemma follows_fieldTokens (fields : List (Option String × Json)) {ts : List Token} :
    Follows (fieldTokens fields ++ ts) := by
  intro t ht
  cases fields with
  | nil => exact .inr (.inr (Option.some.inj ht).symm)
  | cons field fields => exact .inl (Option.some.inj ht).symm

mutual

lemma separated_tokens (v : Json) {ts : List Token} (hfollows : Follows ts) (h : Separated ts) :
    Separated (tokens v ++ ts) := by
  match v with
  | .null | .bool _ | .natural _ | .otherNumber | .string _ => exact ⟨fun _ => hfollows, h⟩
  | .array [] | .object [] => exact ⟨nofun, nofun, h⟩
  | .array (item :: items) =>
    rw [tokens, List.cons_append, List.append_assoc]
    exact ⟨nofun, separated_tokens item (follows_itemTokens items) (separated_itemTokens items h)⟩
  | .object ((key, value) :: fields) =>
    rw [tokens, List.cons_append, List.cons_append, List.cons_append, List.append_assoc]
    exact ⟨nofun, nofun, nofun,
      separated_tokens value (follows_fieldTokens fields) (separated_fieldTokens fields h)⟩

lemma separated_itemTokens (items : List Json) {ts : List Token} (h : Separated ts) :
    Separated (itemTokens items ++ ts) := by
  match items with
  | [] => exact ⟨nofun, h⟩
  | item :: items =>
    rw [itemTokens, List.cons_append, List.append_assoc]
    exact ⟨nofun, separated_tokens item (follows_itemTokens items) (separated_itemTokens items h)⟩

lemma separated_fieldTokens (fields : List (Option String × Json)) {ts : List Token}
    (h : Separated ts) : Separated (fieldTokens fields ++ ts) := by
  match fields with
  | [] => exact ⟨nofun, h⟩
  | (key, value) :: fields =>
    rw [fieldTokens, List.cons_append, List.cons_append, List.cons_append, List.append_assoc]
    exact ⟨nofun, nofun, nofun,
      separated_tokens value (follows_fieldTokens fields) (separated_fieldTokens fields h)⟩

end

/-- The first item of an array is read as any other value. -/
lemma foldlM_firstItem (v : Json) (ts : List Token) (stack : List Frame) :
    (tokens v ++ ts).foldlM step? (.firstItem stack) =
      (tokens v ++ ts).foldlM step? (.value (.array [] :: stack)) := by
  match v with
  | .null | .bool _ | .natural _ | .otherNumber | .string _ | .array [] | .object []
  | .array (_ :: _) | .object ((_, _) :: _) => rfl

mutual

/-- The tokens of a value are read as that value, whatever is open around it. -/
lemma foldlM_tokens (v : Json) (ts : List Token) (stack : List Frame) :
    (tokens v ++ ts).foldlM step? (.value stack) = ts.foldlM step? (.finished v stack) := by
  match v with
  | .null | .bool _ | .natural _ | .otherNumber | .string _ | .array [] | .object [] => rfl
  | .array (item :: items) =>
    rw [tokens, List.cons_append, List.append_assoc]
    calc
      _ = (tokens item ++ (itemTokens items ++ ts)).foldlM step? (.firstItem stack) := rfl
      _ = _ := by rw [foldlM_firstItem, foldlM_tokens, foldlM_itemTokens, List.nil_append]
  | .object ((key, value) :: fields) =>
    rw [tokens, List.cons_append, List.cons_append, List.cons_append, List.append_assoc]
    calc
      _ = (tokens value ++ (fieldTokens fields ++ ts)).foldlM step?
          (.value (.object [] key :: stack)) := rfl
      _ = _ := by rw [foldlM_tokens, foldlM_fieldTokens, List.nil_append]

lemma foldlM_itemTokens (v : Json) (done items : List Json) (ts : List Token)
    (stack : List Frame) :
    (itemTokens items ++ ts).foldlM step? (.finished v (.array done :: stack)) =
      ts.foldlM step? (.finished (.array (done ++ v :: items)) stack) := by
  match items with
  | [] => rfl
  | item :: items =>
    rw [itemTokens, List.cons_append, List.append_assoc]
    calc
      _ = (tokens item ++ (itemTokens items ++ ts)).foldlM step?
          (.value (.array (done ++ [v]) :: stack)) := rfl
      _ = _ := by rw [foldlM_tokens, foldlM_itemTokens, List.append_assoc, List.singleton_append]

lemma foldlM_fieldTokens (key : Option String) (v : Json)
    (done fields : List (Option String × Json)) (ts : List Token) (stack : List Frame) :
    (fieldTokens fields ++ ts).foldlM step? (.finished v (.object done key :: stack)) =
      ts.foldlM step? (.finished (.object (done ++ (key, v) :: fields)) stack) := by
  match fields with
  | [] => rfl
  | (key', value) :: fields =>
    rw [fieldTokens, List.cons_append, List.cons_append, List.cons_append, List.append_assoc]
    calc
      _ = (tokens value ++ (fieldTokens fields ++ ts)).foldlM step?
          (.value (.object (done ++ [(key, v)]) key' :: stack)) := rfl
      _ = _ := by rw [foldlM_tokens, foldlM_fieldTokens, List.append_assoc, List.singleton_append]

end

/-- The tokens of items, with a comma behind each. -/
def doneItems (items : List Json) : List Token := items.flatMap fun item => tokens item ++ [.comma]

/-- The tokens of fields, with a comma behind each. -/
def doneFields (fields : List (Option String × Json)) : List Token :=
  fields.flatMap fun (key, value) => .string key :: .colon :: (tokens value ++ [.comma])

/-- The tokens that were taken for what is still open. -/
def stackTokens : List Frame → List Token
  | [] => []
  | .array items :: stack => stackTokens stack ++ .openBracket :: doneItems items
  | .object fields key :: stack =>
    stackTokens stack ++ .openBrace :: (doneFields fields ++ [.string key, .colon])

/-- The tokens that were taken so far. -/
def takenTokens : Expect → List Token
  | .value stack => stackTokens stack
  | .firstItem stack => stackTokens stack ++ [.openBracket]
  | .firstKey stack => stackTokens stack ++ [.openBrace]
  | .key fields stack => stackTokens stack ++ .openBrace :: doneFields fields
  | .colon fields key stack =>
    stackTokens stack ++ .openBrace :: (doneFields fields ++ [.string key])
  | .finished v stack => stackTokens stack ++ tokens v

lemma tokens_array (items : List Json) (v : Json) :
    tokens (.array (items ++ [v])) =
      .openBracket :: (doneItems items ++ (tokens v ++ [.closeBracket])) := by
  have hmore : ∀ (items : List Json) (first : Json), tokens first ++ itemTokens (items ++ [v]) =
      doneItems (first :: items) ++ (tokens v ++ [.closeBracket]) := by
    intro items
    induction items with
    | nil => simp [doneItems, itemTokens]
    | cons item items ih =>
      intro first
      rw [List.cons_append, itemTokens, ih]
      simp [doneItems]
  cases items with
  | nil => simp [tokens, itemTokens, doneItems]
  | cons item items => rw [List.cons_append, tokens, hmore]

lemma tokens_object (fields : List (Option String × Json)) (key : Option String) (v : Json) :
    tokens (.object (fields ++ [(key, v)])) =
      .openBrace ::
        (doneFields fields ++ .string key :: .colon :: (tokens v ++ [.closeBrace])) := by
  have hmore : ∀ (fields : List (Option String × Json)) (key' : Option String) (first : Json),
      .string key' :: .colon :: (tokens first ++ fieldTokens (fields ++ [(key, v)])) =
        doneFields ((key', first) :: fields) ++
          .string key :: .colon :: (tokens v ++ [.closeBrace]) := by
    intro fields
    induction fields with
    | nil => simp [doneFields, fieldTokens]
    | cons field fields ih =>
      intro key' first
      rw [List.cons_append, fieldTokens, ih]
      simp [doneFields]
  cases fields with
  | nil => simp [tokens, fieldTokens, doneFields]
  | cons field fields => rw [List.cons_append, tokens, hmore]

lemma takenTokens_startValue? (h : startValue? stack t = some s') :
    takenTokens s' = stackTokens stack ++ [t] := by
  cases t with
  | closeBrace | closeBracket | colon | comma => cases h
  | openBrace | openBracket | null | bool | natural | otherNumber | string =>
    obtain rfl := Option.some.inj h
    rfl

/-- What was taken is what was taken before, and one more token. -/
lemma takenTokens_step? (h : step? s t = some s') : takenTokens s' = takenTokens s ++ [t] := by
  revert h
  fun_cases step? s t with
  | case1 stack => exact takenTokens_startValue?
  | case3 stack =>
    intro h
    rw [takenTokens_startValue? h]
    simp [stackTokens, takenTokens, doneItems]
  | case9 v items stack =>
    rintro ⟨⟩
    simp [stackTokens, takenTokens, tokens_array]
  | case11 v fields key stack =>
    rintro ⟨⟩
    simp [stackTokens, takenTokens, tokens_object]
  | case2 | case4 =>
    rintro ⟨⟩
    simp [takenTokens, tokens]
  | case5 | case6 | case7 =>
    rintro ⟨⟩
    simp [stackTokens, takenTokens, doneFields]
  | case8 | case10 =>
    rintro ⟨⟩
    simp [stackTokens, takenTokens, doneItems, doneFields]
  | case12 => exact nofun

lemma takenTokens_foldlM {ts : List Token} (h : ts.foldlM step? s = some s') :
    takenTokens s' = takenTokens s ++ ts := by
  induction ts generalizing s with
  | nil =>
    obtain rfl := Option.some.inj h
    rw [List.append_nil]
  | cons t ts ih =>
    rw [List.foldlM_cons, Option.bind_eq_bind, Option.bind_eq_some_iff] at h
    obtain ⟨next, hstep, hrest⟩ := h
    rw [ih hrest, takenTokens_step? hstep, List.append_assoc, List.singleton_append]

lemma foldlM_eq_finished {ts : List Token} :
    ts.foldlM step? (.value []) = some (.finished v []) ↔ ts = tokens v := by
  constructor
  · intro h
    exact (takenTokens_foldlM h).symm
  · rintro rfl
    have hread := foldlM_tokens v [] []
    rwa [List.append_nil] at hread

end Building

lemma string?_eq_some {v : Json} {s : String} : v.string? = some s ↔ v = .string (some s) := by
  cases v <;> simp [Json.string?]

/-- A text is read as a value if and only if it writes that value. -/
theorem parse?_eq_some {text : String} {v : Json} : parse? text = some v ↔ Writes v text := by
  have hseparated : Separated (tokens v) := by
    rw [← List.append_nil (tokens v)]
    exact separated_tokens v (by simp [Follows]) trivial
  unfold parse? Writes
  rw [← all?_eq_some hseparated]
  simp only [Option.bind_eq_bind, Option.bind_eq_some_iff]
  constructor
  · rintro ⟨ts, hts, s, hread, h⟩
    split at h
    · obtain rfl := Option.some.inj h
      rw [hts, foldlM_eq_finished.mp hread]
    · cases h
  · intro h
    exact ⟨_, h, _, foldlM_eq_finished.mpr rfl, rfl⟩

end SqlMigrations.Proofs
