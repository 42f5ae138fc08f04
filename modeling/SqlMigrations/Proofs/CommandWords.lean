import SqlMigrations.Cli.Arguments
import SqlMigrations.Proofs.Cuts
import SqlMigrations.Proofs.Lookups
import SqlMigrations.Proofs.Results

/-!
# Words of a command line

The grammar of the words of a part: what gives an option, and what is refused wherever it stands.
Each single word is read as the grammar says. Since the value of an option may be checked only when
the next option comes, what is read is told by the options that a part has once its pending one is
checked.
-/

namespace SqlMigrations.Proofs

open Cli (Opt Part PartState Subcommand readVersion?)

def longName : Opt → String
  | .verbose => "verbose"
  | .projectDir => "project-dir"
  | .config => "config"
  | .target => "target"
  | .database => "database"
  | .dir => "dir"
  | .toVersion => "to-version"
  | .json => "json"
  | .help => "help"
  | .version => "version"

def letter? : Opt → Option Char
  | .verbose => some 'v'
  | .projectDir => some 'p'
  | .config => some 'c'
  | .target => some 't'
  | .help => some 'h'
  | .version => some 'V'
  | .database | .dir | .toVersion | .json => none

/-- Options that are given without a value. -/
def isFlag : Opt → Bool
  | .verbose | .json => true
  | _ => false

lemma takesValue_of_isFlag {o : Opt} (h : isFlag o = true) : ¬ o.takesValue = true := by
  cases o <;> simp [isFlag, Opt.takesValue] at h ⊢

/-- Words that name an option. -/
inductive Names (o : Opt) : List Char → Prop
  | long : Names o ('-' :: '-' :: (longName o).toList)
  | short {c : Char} (letter : letter? o = some c) : Names o ['-', c]

/-- Words that name an option and have its value attached. -/
inductive Attaches (o : Opt) (value : List Char) : List Char → Prop
  | long : Attaches o value ('-' :: '-' :: ((longName o).toList ++ '=' :: value))
  | equals {c : Char} (letter : letter? o = some c) : Attaches o value ('-' :: c :: '=' :: value)
  | adjoined {c d : Char} {cs : List Char} (letter : letter? o = some c) (hvalue : value = d :: cs)
      (plain : d ≠ '=') : Attaches o value ('-' :: c :: value)

/-- Words that start with a dash and are not the dash alone. -/
def IsDashed (w : String) : Prop := ∃ c cs, w.toList = '-' :: c :: cs

/-- Words that a part refuses wherever an option may stand. -/
inductive Faulty (part : Part) (w : String) : Prop
  | surplus (plain : ¬ IsDashed w) (unnamed : part = none → Subcommand.ofName? w = none)
  | unknown {cs : List Char} (hw : w.toList = '-' :: '-' :: cs) (nonempty : cs ≠ [])
      (unknown : ∀ o : Opt, o.isKnownIn part = true →
        cs ≠ (longName o).toList ∧ ∀ value, cs ≠ (longName o).toList ++ '=' :: value)
  | valued {o : Opt} {value : List Char} (known : o.isKnownIn part = true)
      (flag : o.takesValue = false)
      (hw : w.toList = '-' :: '-' :: ((longName o).toList ++ '=' :: value))
  | request {o : Opt} (known : o.isKnownIn part = true) (flag : o.takesValue = false)
      (asks : isFlag o = false) (hw : w.toList = '-' :: '-' :: (longName o).toList)
  | unknownLetter {c : Char} {cs : List Char} (hw : w.toList = '-' :: c :: cs) (hc : c ≠ '-')
      (unknown : ∀ o : Opt, o.isKnownIn part = true → letter? o ≠ some c)
  | requestLetter {o : Opt} {c : Char} {cs : List Char} (known : o.isKnownIn part = true)
      (flag : o.takesValue = false) (asks : isFlag o = false) (letter : letter? o = some c)
      (hw : w.toList = '-' :: c :: cs)
  | dashLetter {o : Opt} {c : Char} {cs : List Char} (known : o.isKnownIn part = true)
      (flag : o.takesValue = false) (letter : letter? o = some c)
      (hw : w.toList = '-' :: c :: '-' :: cs)

/-- What stands in a part: an option with its value, which is empty for a flag; a word that is
refused; an option without its value; or a double dash and all that follows it. -/
inductive Entry where
  | option (o : Opt) (value : String)
  | fault (word : String)
  | lacking (o : Opt)
  | ended (words : List String)
  deriving DecidableEq, Repr

/-- The words of a part. Letters of flags may stand before that of another option in one word. A
double dash can only stand after a subcommand, and there an option may lack its value at the end. -/
inductive PartWords (part : Part) : List Entry → List String → Prop
  | nil : PartWords part [] []
  | flag {o : Opt} {w : String} {es : List Entry} {ws : List String}
      (known : o.isKnownIn part = true) (flag : isFlag o = true) (names : Names o w.toList)
      (later : PartWords part es ws) : PartWords part (.option o "" :: es) (w :: ws)
  | cluster {o : Opt} {c d : Char} {cs : List Char} {w : String} {es : List Entry}
      {ws : List String} (known : o.isKnownIn part = true) (flag : isFlag o = true)
      (letter : letter? o = some c) (hd : d ≠ '-') (hw : w.toList = '-' :: c :: d :: cs)
      (later : PartWords part es (String.ofList ('-' :: d :: cs) :: ws)) :
      PartWords part (.option o "" :: es) (w :: ws)
  | separate {o : Opt} {w value : String} {es : List Entry} {ws : List String}
      (known : o.isKnownIn part = true) (takes : o.takesValue = true) (names : Names o w.toList)
      (plain : ¬ IsDashed value) (later : PartWords part es ws) :
      PartWords part (.option o value :: es) (w :: value :: ws)
  | attached {o : Opt} {w value : String} {es : List Entry} {ws : List String}
      (known : o.isKnownIn part = true) (takes : o.takesValue = true)
      (attaches : Attaches o value.toList w.toList) (later : PartWords part es ws) :
      PartWords part (.option o value :: es) (w :: ws)
  | fault {w : String} {es : List Entry} {ws : List String} (faulty : Faulty part w)
      (later : PartWords part es ws) : PartWords part (.fault w :: es) (w :: ws)
  | lacking {o : Opt} {w : String} {es : List Entry} {ws : List String}
      (known : o.isKnownIn part = true) (takes : o.takesValue = true) (names : Names o w.toList)
      (next : ∀ v ∈ ws.head?, IsDashed v ∧ (v = "--" → part ≠ none))
      (last : ws = [] → part ≠ none)
      (later : PartWords part es ws) : PartWords part (.lacking o :: es) (w :: ws)
  | ended {ws : List String} (after : part ≠ none) : PartWords part [.ended ws] ("--" :: ws)

/-- Options with one more, which must not be there yet. -/
def addOption (given : List (Opt × String)) (o : Opt) (value : String) :
    Option (List (Opt × String)) :=
  if given.any fun g => g.1 == o then none
  else if o = .toVersion ∧ readVersion? value = none then none
  else some (given ++ [(o, value)])

/-- Options after one more entry. -/
def addEntry (given : List (Opt × String)) : Entry → Option (List (Opt × String))
  | .option o value => addOption given o value
  | .ended [] => some given
  | .fault _ | .lacking _ | .ended (_ :: _) => none

/-- The options of a part once the pending one is checked. -/
def gathered (s : PartState) : Option (List (Opt × String)) := s.settle.toOption.map (·.given)

section States

variable {part : Part} {s : PartState} {o : Opt} {w value : String} {c : Char} {cs : List Char}
  {attached : Option String}

lemma toOption_bind {ε α β : Type} {x : Except ε α} {f : α → Except ε β} :
    (x >>= f).toOption = x.toOption.bind fun a => (f a).toOption := by
  cases x <;> rfl

lemma add_toOption : (s.add o value).toOption =
    (addOption s.given o value).map fun given => { s with given } := by
  unfold PartState.add addOption
  split_ifs <;> rfl

lemma settle_toOption : s.settle.toOption =
    (gathered s).map fun given => ⟨given, none, s.isTrailing⟩ := by
  unfold gathered
  obtain ⟨given, pending, isTrailing⟩ := s
  match pending with
  | none | some (_, none) => rfl
  | some (o, some value) =>
    simp only [PartState.settle, add_toOption, Option.map_map]
    rfl

lemma gathered_pending {given : List (Opt × String)} {isTrailing : Bool} :
    gathered ⟨given, some (o, some value), isTrailing⟩ = addOption given o value := by
  simp only [gathered, PartState.settle, add_toOption, Option.map_map]
  exact Option.map_id'

lemma gathered_trailing : gathered { s with isTrailing := true } = gathered s := by
  obtain ⟨given, pending, isTrailing⟩ := s
  match pending with
  | none | some (_, none) => rfl
  | some (o, some value) => rw [gathered_pending, gathered_pending]

lemma flag_toOption (h : isFlag o = true) : (s.flag o).toOption =
    (gathered s).bind fun given => (addOption given o "").map fun given =>
      ⟨given, none, s.isTrailing⟩ := by
  have hflag : s.flag o = s.settle >>= fun s => s.add o "" := by
    cases o <;> first | rfl | cases h
  rw [hflag, toOption_bind, settle_toOption, Option.bind_map]
  simp only [Function.comp_def, add_toOption]

lemma ready_of_flag {s' : PartState} (h : isFlag o = true) (hs' : (s.flag o).toOption = some s') :
    s'.isTrailing = s.isTrailing ∧ s'.awaitsValue = false := by
  simp only [flag_toOption h, Option.bind_eq_some_iff, Option.map_eq_some_iff] at hs'
  obtain ⟨_, _, _, _, rfl⟩ := hs'
  exact ⟨rfl, rfl⟩

lemma option_toOption_some : (s.option o (some value)).toOption =
    (gathered s).bind fun given => (addOption given o value).map fun given =>
      ⟨given, none, s.isTrailing⟩ := by
  unfold PartState.option
  rw [toOption_bind, settle_toOption, Option.bind_map]
  simp only [Function.comp_def, add_toOption]

lemma option_toOption_none : (s.option o none).toOption =
    (gathered s).map fun given => ⟨given, some (o, none), s.isTrailing⟩ := by
  unfold PartState.option
  rw [toOption_bind, settle_toOption, Option.bind_map, Option.map_eq_bind]
  rfl

end States

section Words

variable {part : Part} {s : PartState} {o : Opt} {w value : String} {c : Char} {cs name : List Char}

lemma ofLong?_eq_some : Opt.ofLong? name = some o ↔ name = (longName o).toList := by
  constructor
  · intro h
    have hmem := (lookup_eq_some_iff_mem (by decide)).mp h
    simp only [List.mem_cons, Prod.mk.injEq, List.not_mem_nil, or_false] at hmem
    rw [← String.toList_ofList (l := name)]
    rcases hmem with h | h | h | h | h | h | h | h | h | h
    all_goals rw [h.1, h.2, longName]
  · rintro rfl
    unfold Opt.ofLong?
    simp only [String.ofList_toList]
    cases o <;> rfl

lemma ofShort?_eq_some : Opt.ofShort? c = some o ↔ letter? o = some c := by
  constructor
  · fun_cases Opt.ofShort? c with
    | case7 => exact nofun
    | case1 | case2 | case3 | case4 | case5 | case6 =>
      intro h
      rw [← Option.some.inj h, letter?]
  · intro h
    cases o <;> simp only [letter?, Option.some.injEq, reduceCtorEq] at h <;> subst h <;> rfl

lemma equals_notMem_longName : '=' ∉ (longName o).toList := by
  cases o <;> decide

lemma longName_ne_nil : (longName o).toList ≠ [] := by
  cases o <;> decide

lemma letter?_ne_dash (h : letter? o = some c) : c ≠ '-' := by
  cases o <;> simp [letter?] at h <;> subst h <;> decide

lemma known_ofLong? (h : o.isKnownIn part = true) :
    (Opt.ofLong? (longName o).toList).filter (Opt.isKnownIn part) = some o := by
  rw [ofLong?_eq_some.mpr rfl, Option.filter_some, if_pos h]

lemma known_ofShort? (hletter : letter? o = some c) (h : o.isKnownIn part = true) :
    (Opt.ofShort? c).filter (Opt.isKnownIn part) = some o := by
  rw [ofShort?_eq_some.mpr hletter, Option.filter_some, if_pos h]

lemma word_long (hready : s.isTrailing = false) (hw : w.toList = '-' :: '-' :: cs)
    (hcs : cs ≠ []) : s.word part w = s.long part cs := by
  unfold PartState.word
  simp only [hready, hw, Bool.false_eq_true, if_false]

lemma word_short (hready : s.isTrailing = false) (hw : w.toList = '-' :: c :: cs)
    (hc : c ≠ '-') : s.word part w = s.short part (c :: cs) := by
  unfold PartState.word
  simp only [hready, hw, Bool.false_eq_true, if_false]
  split <;> simp_all

/-- A word that is no option, or comes behind a double dash. -/
lemma word_plain (hplain : s.isTrailing = true ∨ ¬ IsDashed w) : s.word part w =
    match s.pending with
    | some (o, none) =>
      if s.isTrailing then .error (s.surplus part w)
      else .ok { s with pending := some (o, some w) }
    | _ => .error (s.surplus part w) := by
  unfold PartState.word
  by_cases htrailing : s.isTrailing = true
  · exact if_pos htrailing
  · rw [if_neg htrailing]
    have hplain : ¬ IsDashed w := hplain.resolve_left htrailing
    split
    · rename_i hw
      exact (hplain ⟨_, _, hw⟩).elim
    · rename_i hw
      exact (hplain ⟨_, _, hw⟩).elim
    · rename_i hw
      exact (hplain ⟨_, _, hw⟩).elim
    · rfl

lemma word_value (hready : s.isTrailing = false) (hplain : ¬ IsDashed w)
    (hpending : s.pending = some (o, none)) :
    s.word part w = .ok { s with pending := some (o, some w) } := by
  rw [word_plain (.inr hplain), hpending, hready]
  rfl

lemma word_surplus (hplain : s.isTrailing = true ∨ ¬ IsDashed w) (hawaits : s.awaitsValue = false) :
    s.word part w = .error (s.surplus part w) := by
  rw [word_plain hplain]
  unfold PartState.awaitsValue at hawaits
  split <;> simp_all

lemma word_dashes (hready : s.isTrailing = false) :
    s.word part "--" = .ok { s with isTrailing := true } := by
  unfold PartState.word
  rw [if_neg (by simp [hready])]
  rfl

lemma long_longName (h : o.isKnownIn part = true) : s.long part (longName o).toList =
    if o.takesValue then s.option o none else s.flag o := by
  unfold PartState.long
  rw [splitFirst?_eq_none.mpr equals_notMem_longName]
  simp only [known_ofLong? h]
  rfl

lemma long_attached (h : o.isKnownIn part = true) {value : List Char} :
    s.long part ((longName o).toList ++ '=' :: value) =
      if o.takesValue then s.option o (some (String.ofList value)) else .error .tooManyValues := by
  unfold PartState.long
  rw [splitFirst?_append value equals_notMem_longName]
  simp only [known_ofLong? h]
  rfl

lemma short_cons (hletter : letter? o = some c) (h : o.isKnownIn part = true) :
    s.short part (c :: cs) =
      if o.takesValue then s.option o (PartState.attachedValue? cs)
      else s.flag o >>= fun s => s.short part cs := by
  rw [PartState.short, known_ofShort? hletter h]
  simp only
  split_ifs
  · rfl
  · cases s.flag o <;> rfl

/-- A word that names an option is read as the option without a value, or as the flag. -/
lemma word_of_names (hready : s.isTrailing = false) (h : o.isKnownIn part = true)
    (hnames : Names o w.toList) :
    s.word part w = if o.takesValue then s.option o none else s.flag o := by
  generalize hw : w.toList = cs at hnames
  cases hnames with
  | long => rw [word_long hready hw longName_ne_nil, long_longName h]
  | short hletter =>
    rw [word_short hready hw (letter?_ne_dash hletter), short_cons hletter h]
    split_ifs
    · rfl
    · cases s.flag o <;> rfl

lemma word_of_attaches (hready : s.isTrailing = false) (h : o.isKnownIn part = true)
    (htakes : o.takesValue = true) (hattaches : Attaches o value.toList w.toList) :
    s.word part w = s.option o (some value) := by
  generalize hw : w.toList = cs at hattaches
  cases hattaches with
  | long =>
    rw [word_long hready hw (by simp), long_attached h, if_pos htakes, String.ofList_toList]
  | equals hletter =>
    rw [word_short hready hw (letter?_ne_dash hletter), short_cons hletter h, if_pos htakes,
      PartState.attachedValue?, String.ofList_toList]
  | adjoined hletter hvalue hplain =>
    rw [word_short hready hw (letter?_ne_dash hletter), short_cons hletter h, if_pos htakes,
      hvalue, PartState.attachedValue?, ← hvalue, String.ofList_toList]
    · nofun
    · rintro _ ⟨⟩
      exact hplain rfl

lemma flag_of_request (hflag : o.takesValue = false) (hasks : isFlag o = false) :
    (s.flag o).toOption = none := by
  unfold PartState.flag
  rw [toOption_bind, Option.bind_eq_none_iff]
  intro s' _
  cases o
  case help | version => rfl
  all_goals simp [Opt.takesValue, isFlag] at hflag hasks

lemma filter_eq_none {found : Option Opt}
    (h : ∀ o, o.isKnownIn part = true → found ≠ some o) :
    found.filter (Opt.isKnownIn part) = none := by
  rw [Option.filter_eq_none_iff]
  exact fun o ho hknown => h o hknown ho

lemma long_of_unknown (h : ∀ o : Opt, o.isKnownIn part = true →
    cs ≠ (longName o).toList ∧ ∀ value, cs ≠ (longName o).toList ++ '=' :: value) :
    s.long part cs = .error .unknownArgument := by
  unfold PartState.long
  cases hsplit : Text.splitFirst? '=' cs with
  | none =>
    have hnone : (Opt.ofLong? cs).filter (Opt.isKnownIn part) = none :=
      filter_eq_none fun o hknown hname => (h o hknown).1 (ofLong?_eq_some.mp hname)
    simp only [hnone]
  | some cut =>
    obtain ⟨name, value⟩ := cut
    have hnone : (Opt.ofLong? name).filter (Opt.isKnownIn part) = none := by
      refine filter_eq_none fun o hknown hname => (h o hknown).2 value ?_
      rw [← ofLong?_eq_some.mp hname]
      exact (splitFirst?_eq_some.mp hsplit).1
    simp only [hnone]

lemma short_of_unknown (h : ∀ o : Opt, o.isKnownIn part = true → letter? o ≠ some c) :
    s.short part (c :: cs) = .error .unknownArgument := by
  have hnone : (Opt.ofShort? c).filter (Opt.isKnownIn part) = none :=
    filter_eq_none fun o hknown hletter => h o hknown (ofShort?_eq_some.mp hletter)
  rw [PartState.short, hnone]

/-- A faulty word is refused. -/
lemma word_of_faulty (hready : s.isTrailing = false) (hawaits : s.awaitsValue = false)
    (h : Faulty part w) : (s.word part w).toOption = none := by
  have hdash : ∀ o : Opt, o.isKnownIn part = true → letter? o ≠ some '-' :=
    fun o _ hletter => letter?_ne_dash hletter rfl
  cases h with
  | surplus hplain =>
    rw [word_surplus (.inr hplain) hawaits]
    rfl
  | unknown hw hcs hunknown =>
    rw [word_long hready hw hcs, long_of_unknown hunknown]
    rfl
  | valued hknown hflag hw =>
    rw [word_long hready hw (by simp), long_attached hknown, hflag]
    rfl
  | request hknown hflag hasks hw =>
    rw [word_long hready hw longName_ne_nil, long_longName hknown, hflag]
    exact flag_of_request hflag hasks
  | unknownLetter hw hc hunknown =>
    rw [word_short hready hw hc, short_of_unknown hunknown]
    rfl
  | requestLetter hknown hflag hasks hletter hw =>
    rw [word_short hready hw (letter?_ne_dash hletter), short_cons hletter hknown, hflag,
      if_neg Bool.false_ne_true, toOption_bind, flag_of_request hflag hasks]
    rfl
  | dashLetter hknown hflag hletter hw =>
    rw [word_short hready hw (letter?_ne_dash hletter), short_cons hletter hknown, hflag,
      if_neg Bool.false_ne_true, toOption_bind, Option.bind_eq_none_iff]
    intro s' _
    rw [short_of_unknown hdash]
    rfl

lemma settle_of_awaiting (h : s.awaitsValue = true) : s.settle.toOption = none := by
  unfold PartState.awaitsValue at h
  unfold PartState.settle
  match hpending : s.pending with
  | none | some (_, some _) => simp [hpending] at h
  | some (_, none) => rfl

/-- A word with a dash does not give the value that is awaited. -/
lemma word_of_awaiting (hready : s.isTrailing = false) (hawaits : s.awaitsValue = true)
    (hdashed : IsDashed w) (hw : w ≠ "--") : (s.word part w).toOption = none := by
  have hoption : ∀ o attached, (s.option o attached).toOption = none := fun o attached => by
    rw [PartState.option, toOption_bind, settle_of_awaiting hawaits, Option.bind_none]
  have hflag : ∀ o, (s.flag o).toOption = none := fun o => by
    rw [PartState.flag, toOption_bind, settle_of_awaiting hawaits, Option.bind_none]
  obtain ⟨c, cs, hcs⟩ := hdashed
  by_cases hc : c = '-'
  · subst hc
    have hne : cs ≠ [] := by
      rintro rfl
      exact hw (String.toList_inj.mp hcs)
    rw [word_long hready hcs hne]
    unfold PartState.long
    cases Text.splitFirst? '=' cs <;> dsimp only
    all_goals
      split
      · rfl
      · split_ifs
        · exact hoption _ _
        · rfl
        · exact hflag _
  · rw [word_short hready hcs hc, PartState.short]
    split
    · rfl
    · split_ifs
      · exact hoption _ _
      · split
        · rename_i hok
          have hnone := hflag ‹Opt›
          rw [hok] at hnone
          cases hnone
        · rfl

end Words

/-- What a word can be where an option may stand. -/
inductive WordForm (part : Part) (w : String) : Prop
  | dashes (hw : w = "--")
  | flag {o : Opt} (known : o.isKnownIn part = true) (flag : isFlag o = true)
      (names : Names o w.toList)
  | cluster {o : Opt} {c d : Char} {cs : List Char} (known : o.isKnownIn part = true)
      (flag : isFlag o = true) (letter : letter? o = some c) (hd : d ≠ '-')
      (hw : w.toList = '-' :: c :: d :: cs)
  | names {o : Opt} (known : o.isKnownIn part = true) (takes : o.takesValue = true)
      (names : Names o w.toList)
  | attaches {o : Opt} {value : String} (known : o.isKnownIn part = true)
      (takes : o.takesValue = true) (attaches : Attaches o value.toList w.toList)
  | fault (faulty : Faulty part w)

section Forms

variable {part : Part} {w : String} {o : Opt} {c : Char} {cs value : List Char}

lemma WordForm.of_attaches (hknown : o.isKnownIn part = true) (htakes : o.takesValue = true)
    (hw : w.toList = cs) (h : Attaches o value cs) : WordForm part w := by
  rw [← hw, ← String.toList_ofList (l := value)] at h
  exact .attaches hknown htakes h

lemma wordForm_long (hw : w.toList = '-' :: '-' :: cs) (hcs : cs ≠ []) : WordForm part w := by
  cases hsplit : Text.splitFirst? '=' cs with
  | none =>
    have hnot : '=' ∉ cs := splitFirst?_eq_none.mp hsplit
    cases hfound : (Opt.ofLong? cs).filter (Opt.isKnownIn part) with
    | none =>
      refine .fault (.unknown hw hcs fun o hknown => ⟨?_, ?_⟩)
      · rintro rfl
        rw [known_ofLong? hknown] at hfound
        cases hfound
      · rintro value rfl
        simp at hnot
    | some o =>
      obtain ⟨hname, hknown⟩ := Option.filter_eq_some_iff.mp hfound
      obtain rfl := ofLong?_eq_some.mp hname
      have hnames : Names o w.toList := hw ▸ .long
      by_cases htakes : o.takesValue = true
      · exact .names hknown htakes hnames
      · by_cases hflag : isFlag o = true
        · exact .flag hknown hflag hnames
        · exact .fault (.request hknown (by simpa using htakes) (by simpa using hflag) hw)
  | some cut =>
    obtain ⟨name, value⟩ := cut
    obtain ⟨rfl, hnot⟩ := splitFirst?_eq_some.mp hsplit
    cases hfound : (Opt.ofLong? name).filter (Opt.isKnownIn part) with
    | none =>
      refine .fault (.unknown hw hcs fun o hknown => ⟨fun heq => ?_, fun value' heq => ?_⟩)
      · have hmem : '=' ∈ (longName o).toList := by
          rw [← heq]
          simp
        exact equals_notMem_longName hmem
      · have hsame := splitFirst?_append value' (equals_notMem_longName (o := o))
        rw [← heq, hsplit] at hsame
        obtain ⟨rfl, -⟩ := Prod.mk.inj (Option.some.inj hsame)
        rw [known_ofLong? hknown] at hfound
        cases hfound
    | some o =>
      obtain ⟨hname, hknown⟩ := Option.filter_eq_some_iff.mp hfound
      obtain rfl := ofLong?_eq_some.mp hname
      by_cases htakes : o.takesValue = true
      · exact .of_attaches hknown htakes hw .long
      · exact .fault (.valued hknown (by simpa using htakes) hw)

lemma wordForm_short (hw : w.toList = '-' :: c :: cs) (hc : c ≠ '-') : WordForm part w := by
  cases hfound : (Opt.ofShort? c).filter (Opt.isKnownIn part) with
  | none =>
    refine .fault (.unknownLetter hw hc fun o hknown hletter => ?_)
    rw [known_ofShort? hletter hknown] at hfound
    cases hfound
  | some o =>
    obtain ⟨hname, hknown⟩ := Option.filter_eq_some_iff.mp hfound
    have hletter := ofShort?_eq_some.mp hname
    by_cases htakes : o.takesValue = true
    · cases cs with
      | nil => exact .names hknown htakes (hw ▸ .short hletter)
      | cons d cs =>
        by_cases hd : d = '='
        · subst hd
          exact .of_attaches hknown htakes hw (.equals hletter)
        · exact .of_attaches hknown htakes hw (.adjoined hletter rfl hd)
    · by_cases hflag : isFlag o = true
      · match cs with
        | [] => exact .flag hknown hflag (hw ▸ .short hletter)
        | d :: cs =>
          by_cases hd : d = '-'
          · exact .fault (.dashLetter hknown (by simpa using htakes) hletter (hd ▸ hw))
          · exact .cluster hknown hflag hletter hd hw
      · exact .fault (.requestLetter hknown (by simpa using htakes) (by simpa using hflag)
          hletter hw)

lemma wordForm (w : String) (hunnamed : part = none → Subcommand.ofName? w = none) :
    WordForm part w := by
  by_cases hdashed : IsDashed w
  · obtain ⟨c, cs, hw⟩ := hdashed
    by_cases hc : c = '-'
    · subst hc
      by_cases hcs : cs = []
      · subst hcs
        exact .dashes (String.toList_inj.mp hw)
      · exact wordForm_long hw hcs
    · exact wordForm_short hw hc
  · exact .fault (.surplus hdashed hunnamed)

end Forms

end SqlMigrations.Proofs
