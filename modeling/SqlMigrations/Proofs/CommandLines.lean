import SqlMigrations.Proofs.CommandWords

/-!
# Whole command lines

A part of a command line is read entry by entry, over the options that it has so far, and a command
line part by part. The grammar of parts misses no command line that is accepted, and nothing that
can stand behind a subcommand.
-/

namespace SqlMigrations.Proofs

open Cli (Arguments Opt Part PartState Subcommand globalArgs parse readToSubcommand readWords)

section Parts

variable {β : Type} {part : Part} {es : List Entry} {ws rest : List String}
  {read : PartState → List String → Option β} {k : List (Opt × String) → Option β}

/-- A reading that takes the words of a part one after the other and then goes on with others. -/
structure ReadsPart (part : Part) (read : PartState → List String → Option β) (rest : List String)
    (k : List (Opt × String) → Option β) : Prop where
  word : ∀ s w ws, (part = none → s.isTrailing = false → s.awaitsValue = false →
    Subcommand.ofName? w = none) → read s (w :: ws) = (s.word part w).toOption.bind (read · ws)
  done : ∀ s, s.awaitsValue = false → (part = none → s.isTrailing = false) →
    read s rest = (gathered s).bind k
  awaiting : part ≠ none → ∀ s, s.awaitsValue = true → read s rest = none

lemma ofName?_of_dashed {w : String} (h : IsDashed w) : Subcommand.ofName? w = none := by
  obtain ⟨c, cs, hw⟩ := h
  unfold Subcommand.ofName?
  split <;> simp_all

lemma Names.isDashed {o : Opt} {w : String} (h : Names o w.toList) : IsDashed w := by
  generalize hw : w.toList = cs at h
  cases h <;> exact ⟨_, _, hw⟩

lemma Attaches.isDashed {o : Opt} {value w : String} (h : Attaches o value.toList w.toList) :
    IsDashed w := by
  generalize hw : w.toList = cs at h
  cases h <;> exact ⟨_, _, hw⟩

lemma Faulty.ofName? {w : String} (h : Faulty part w) (hpart : part = none) :
    Subcommand.ofName? w = none := by
  cases h with
  | surplus _ hunnamed => exact hunnamed hpart
  | unknown hw | valued _ _ hw | request _ _ _ hw | unknownLetter hw | requestLetter _ _ _ _ hw
  | dashLetter _ _ _ hw => exact ofName?_of_dashed ⟨_, _, hw⟩

/-- One more option, read in whatever spelling, over the options so far. -/
lemma bind_addOption {s : PartState} {o : Opt} {value : String} (hready : s.isTrailing = false)
    (hlater : ∀ given, read ⟨given, none, false⟩ ws = (es.foldlM addEntry given).bind k) :
    (((gathered s).bind fun given => (addOption given o value).map fun given =>
      (⟨given, none, s.isTrailing⟩ : PartState)).bind (read · ws)) =
      (gathered s).bind fun given =>
        ((Entry.option o value :: es).foldlM addEntry given).bind k := by
  rw [Option.bind_assoc, hready]
  refine congrArg (gathered s).bind (funext fun given => ?_)
  rw [Option.bind_map, List.foldlM_cons, Option.bind_eq_bind, Option.bind_assoc]
  exact congrArg (addOption given o value).bind (funext fun given => hlater given)

lemma ReadsPart.word_dashed {s : PartState} {w : String} (hread : ReadsPart part read rest k)
    (hdashed : IsDashed w) :
    read s (w :: ws ++ rest) = (s.word part w).toOption.bind (read · (ws ++ rest)) :=
  hread.word s w (ws ++ rest) fun _ _ _ => ofName?_of_dashed hdashed

/-- What awaits a value is not read on where a word with a dash comes, or none. -/
lemma ReadsPart.awaiting_dashed {s : PartState} (hread : ReadsPart part read rest k)
    (hnext : ∀ v ∈ ws.head?, IsDashed v ∧ (v = "--" → part ≠ none)) (hlast : ws = [] → part ≠ none)
    (hready : s.isTrailing = false) (hawaits : s.awaitsValue = true) :
    read s (ws ++ rest) = none := by
  cases ws with
  | nil => exact hread.awaiting (hlast rfl) s hawaits
  | cons v ws =>
    obtain ⟨hdashed, hafter⟩ := hnext v rfl
    rw [hread.word_dashed hdashed]
    by_cases hv : v = "--"
    · rw [hv, word_dashes hready]
      change read { s with isTrailing := true } (ws ++ rest) = none
      cases ws with
      | nil => exact hread.awaiting (hafter hv) _ hawaits
      | cons w ws =>
        rw [List.cons_append, hread.word _ w _ fun hpart => (hafter hv hpart).elim,
          word_plain (.inl rfl)]
        split <;> rfl
    · rw [word_of_awaiting hready hawaits hdashed hv]
      rfl

/-- A part is read entry by entry, over the options that it has so far. -/
lemma ReadsPart.read_words (hread : ReadsPart part read rest k) (h : PartWords part es ws) :
    ∀ s : PartState, s.isTrailing = false → s.awaitsValue = false →
      read s (ws ++ rest) =
        (gathered s).bind fun given => (es.foldlM addEntry given).bind k := by
  have hnone : ∀ s : PartState, none = (gathered s).bind fun _ => (none : Option β) := by
    intro s
    rw [Option.bind_fun_none]
  induction h with
  | nil =>
    intro s hready hawaits
    exact hread.done s hawaits fun _ => hready
  | @flag o w es ws hknown hflag hnames hlater ih =>
    intro s hready hawaits
    rw [hread.word_dashed hnames.isDashed, word_of_names hready hknown hnames,
      if_neg (takesValue_of_isFlag hflag), flag_toOption hflag]
    exact bind_addOption hready fun given => ih _ rfl rfl
  | @cluster o c d cs w es ws hknown hflag hletter hd hw hlater ih =>
    intro s hready hawaits
    -- The letters behind a flag are read as a word of their own.
    have hletters : ∀ s' ∈ (s.flag o).toOption,
        ((s'.short part (d :: cs)).toOption.bind fun s => read s (ws ++ rest)) =
          read s' (String.ofList ('-' :: d :: cs) :: ws ++ rest) := by
      intro s' hs'
      have hready' : s'.isTrailing = false := (ready_of_flag hflag hs').1.trans hready
      have hw : (String.ofList ('-' :: d :: cs)).toList = '-' :: d :: cs := String.toList_ofList
      rw [hread.word_dashed ⟨_, _, hw⟩, word_short hready' hw hd]
    rw [hread.word_dashed ⟨_, _, hw⟩, word_short hready hw (letter?_ne_dash hletter),
      short_cons hletter hknown, if_neg (takesValue_of_isFlag hflag), toOption_bind,
      Option.bind_assoc, Option.bind_congr hletters, flag_toOption hflag]
    exact bind_addOption hready fun given => ih _ rfl rfl
  | @separate o w value es ws hknown htakes hnames hplain hlater ih =>
    intro s hready hawaits
    rw [hread.word_dashed hnames.isDashed, word_of_names hready hknown hnames, if_pos htakes,
      option_toOption_none, Option.bind_map]
    refine congrArg (gathered s).bind (funext fun given => ?_)
    dsimp only [Function.comp_apply]
    rw [List.cons_append, hread.word _ value _ fun _ _ hvalue => (by cases hvalue), hready,
      word_value rfl hplain rfl]
    refine (ih ⟨given, some (o, some value), false⟩ rfl rfl).trans ?_
    rw [gathered_pending, List.foldlM_cons, Option.bind_eq_bind, Option.bind_assoc]
    rfl
  | @attached o w value es ws hknown htakes hattaches hlater ih =>
    intro s hready hawaits
    rw [hread.word_dashed hattaches.isDashed, word_of_attaches hready hknown htakes hattaches,
      option_toOption_some]
    exact bind_addOption hready fun given => ih _ rfl rfl
  | @fault w es ws hfaulty hlater ih =>
    intro s hready hawaits
    rw [List.cons_append, hread.word s w _ fun hpart _ _ => hfaulty.ofName? hpart,
      word_of_faulty hready hawaits hfaulty]
    exact hnone s
  | @lacking o w es ws hknown htakes hnames hnext hlast hlater ih =>
    intro s hready hawaits
    rw [hread.word_dashed hnames.isDashed, word_of_names hready hknown hnames, if_pos htakes,
      option_toOption_none, Option.bind_map]
    refine congrArg (gathered s).bind (funext fun given => ?_)
    exact hread.awaiting_dashed hnext hlast hready rfl
  | @ended ws hafter =>
    intro s hready hawaits
    rw [List.cons_append, hread.word s "--" _ fun hpart => (hafter hpart).elim,
      word_dashes hready]
    cases ws with
    | nil =>
      have hdone := hread.done { s with isTrailing := true } hawaits
        fun hpart => (hafter hpart).elim
      rw [gathered_trailing] at hdone
      exact hdone
    | cons w ws =>
      have hsurplus : PartState.word part { s with isTrailing := true } w = _ :=
        word_surplus (.inl rfl) hawaits
      refine Eq.trans ?_ (hnone s)
      change read { s with isTrailing := true } (w :: (ws ++ rest)) = none
      rw [hread.word _ w _ fun hpart => (hafter hpart).elim, hsurplus]
      rfl

end Parts

section Lines

variable {β : Type} {sub : Subcommand} {name : String} {before after : List Entry}
  {ws rest : List String} {env : Option String}

lemma readsPart_after : ReadsPart (some sub)
    (fun s ws => (readWords (some sub) s ws).toOption.bind gathered) [] some where
  word := by
    intro s w ws _
    rw [readWords]
    cases s.word (some sub) w <;> rfl
  done := by
    intro s _ _
    rw [readWords, Option.bind_fun_some]
    rfl
  awaiting := by
    intro _ s hawaits
    change gathered s = none
    rw [gathered, settle_of_awaiting hawaits, Option.map_none]

lemma readToSubcommand_named {s : PartState} (hready : s.isTrailing = false)
    (hawaits : s.awaitsValue = false) (hname : Subcommand.ofName? name = some sub) :
    readToSubcommand s (name :: rest) = .ok (s, some (sub, rest)) := by
  unfold readToSubcommand
  rw [hready, hawaits, if_neg (by decide), hname]

lemma readToSubcommand_unnamed {s : PartState} {w : String}
    (h : s.isTrailing = false → s.awaitsValue = false → Subcommand.ofName? w = none) :
    (readToSubcommand s (w :: ws)).toOption =
      (s.word none w).toOption.bind fun s => (readToSubcommand s ws).toOption := by
  rw [SqlMigrations.Cli.readToSubcommand.eq_def s (w :: ws)]
  by_cases hvalue : (s.isTrailing || s.awaitsValue) = true
  · simp only [hvalue, if_true]
    cases s.word none w <;> rfl
  · obtain ⟨hready, hawaits⟩ : s.isTrailing = false ∧ s.awaitsValue = false := by
      simpa using hvalue
    simp only [hready, hawaits, Bool.or_self, Bool.false_eq_true, if_false, h hready hawaits]
    split_ifs with hhelp
    · have hplain : ¬ IsDashed w := by
        rintro ⟨c, cs, hw⟩
        simp [hhelp] at hw
      rw [word_surplus (.inr hplain) hawaits]
      split <;> rfl
    · cases s.word none w <;> rfl

lemma readsPart_before {k : List (Opt × String) → Option (Subcommand × List String) → Option β}
    (hname : Subcommand.ofName? name = some sub) : ReadsPart none
    (fun s ws => (readToSubcommand s ws).toOption.bind fun found =>
      (gathered found.1).bind fun given => k given found.2)
    (name :: rest) (fun given => k given (some (sub, rest))) where
  word := by
    intro s w ws hunnamed
    rw [readToSubcommand_unnamed (hunnamed rfl), Option.bind_assoc]
  done := by
    intro s hawaits hready
    rw [readToSubcommand_named (hready rfl) hawaits hname]
    rfl
  awaiting := fun h => (h rfl).elim

/-- The arguments that the options of the two parts make. -/
def argumentsOf (sub : Subcommand) (env : Option String) (before after : List (Opt × String)) :
    Arguments :=
  ⟨globalArgs { given := before } { given := after } env, sub.command { given := after }⟩

/-- What a command line comes to, apart from its errors. -/
lemma parse_toOption : (parse ws env).toOption =
    (readToSubcommand {} ws).toOption.bind fun found => (gathered found.1).bind fun given =>
      found.2.bind fun next => ((readWords (some next.1) {} next.2).toOption.bind gathered).map
        (argumentsOf next.1 env given) := by
  unfold parse
  rw [toOption_bind]
  refine congrArg (readToSubcommand {} ws).toOption.bind (funext fun found => ?_)
  obtain ⟨s, next⟩ := found
  match next with
  | none =>
    dsimp only
    rw [toOption_bind]
    simp only [Option.bind_none, Option.bind_fun_none]
    exact Option.bind_fun_none _
  | some (sub, rest) =>
    dsimp only
    simp only [toOption_bind, settle_toOption, Option.bind_some]
    -- The later part is checked first, but both checks must pass in either order.
    cases (readWords (some sub) {} rest).toOption with
    | none => exact (Option.bind_fun_none _).symm
    | some later =>
      rw [Option.bind_some, Option.bind_some]
      cases gathered later <;> cases gathered s <;> rfl

/-- The words of a command line with a subcommand, by what stands in its two parts. -/
inductive LineWords (sub : Subcommand) (before after : List Entry) : List String → Prop
  | intro {ws rest : List String} {name : String} (front : PartWords none before ws)
      (named : Subcommand.ofName? name = some sub) (back : PartWords (some sub) after rest) :
      LineWords sub before after (ws ++ name :: rest)

/-- A command line is read part by part and entry by entry. -/
lemma parse_of_words (h : LineWords sub before after ws) : (parse ws env).toOption =
    (before.foldlM addEntry []).bind fun given =>
      (after.foldlM addEntry []).map (argumentsOf sub env given) := by
  cases h with
  | @intro ws rest name hbefore hname hafter =>
    have hback := readsPart_after.read_words hafter {} rfl rfl
    rw [List.append_nil, show gathered {} = some [] from rfl] at hback
    rw [parse_toOption]
    refine ((readsPart_before (k := fun given found => found.bind fun next =>
      ((readWords (some next.1) {} next.2).toOption.bind gathered).map
        (argumentsOf next.1 env given)) hname).read_words hbefore {} rfl rfl).trans ?_
    simp only [Option.bind_some, hback, Option.bind_fun_some]
    rfl

end Lines

/-! ### The grammar misses nothing -/

section Coverage

variable {sub : Subcommand} {ws rest : List String} {s s' : PartState} {env : Option String}

/-- The size of some words, which is smaller without a word or a letter. -/
def wordsSize : List String → Nat
  | [] => 0
  | w :: ws => w.length + 1 + wordsSize ws

lemma wordsSize_cons {w : String} : wordsSize (w :: ws) = w.length + 1 + wordsSize ws := rfl

/-- The letters behind a flag make a smaller word. -/
lemma wordsSize_letters {w : String} {c d : Char} {cs : List Char}
    (hw : w.toList = '-' :: c :: d :: cs) :
    wordsSize (String.ofList ('-' :: d :: cs) :: ws) < wordsSize (w :: ws) := by
  rw [wordsSize_cons, wordsSize_cons, String.length_ofList, ← String.length_toList, hw]
  simp only [List.length_cons]
  omega

/-- Every list of words can stand behind a subcommand. -/
lemma exists_partWords (n : Nat) (hn : wordsSize ws < n) :
    ∃ es, PartWords (some sub) es ws := by
  induction n generalizing ws with
  | zero => cases hn
  | succ n ih =>
    match ws with
    | [] => exact ⟨[], .nil⟩
    | w :: ws =>
      have hlater : wordsSize ws < n := by
        rw [wordsSize_cons] at hn
        omega
      obtain ⟨es, hes⟩ := ih hlater
      cases wordForm w (nofun : some sub = none → _) with
      | dashes hw =>
        subst hw
        exact ⟨_, .ended nofun⟩
      | flag hknown hflag hnames => exact ⟨_, .flag hknown hflag hnames hes⟩
      | cluster hknown hflag hletter hd hw =>
        obtain ⟨es, hes⟩ := ih (Nat.lt_of_lt_of_le (wordsSize_letters hw) (Nat.le_of_lt_succ hn))
        exact ⟨_, .cluster hknown hflag hletter hd hw hes⟩
      | names hknown htakes hnames =>
        cases ws with
        | nil => exact ⟨_, .lacking hknown htakes hnames (by simp) nofun .nil⟩
        | cons v ws =>
          by_cases hdashed : IsDashed v
          · refine ⟨_, .lacking hknown htakes hnames ?_ nofun hes⟩
            rintro _ ⟨⟩
            exact ⟨hdashed, nofun⟩
          · have hrest : wordsSize ws < n := by
              rw [wordsSize_cons] at hlater
              omega
            obtain ⟨es, hes⟩ := ih hrest
            exact ⟨_, .separate hknown htakes hnames hdashed hes⟩
      | attaches hknown htakes hattaches => exact ⟨_, .attached hknown htakes hattaches hes⟩
      | fault hfaulty => exact ⟨_, .fault hfaulty hes⟩

/-- Behind a double dash no subcommand is reached. -/
lemma readToSubcommand_trailing {next : Subcommand × List String} (h : s.isTrailing = true) :
    (readToSubcommand s ws).toOption ≠ some (s', some next) := by
  cases ws with
  | nil => nofun
  | cons w ws =>
    have hunnamed : s.isTrailing = false → s.awaitsValue = false →
        Subcommand.ofName? w = none := fun hready => by rw [h] at hready; cases hready
    rw [readToSubcommand_unnamed hunnamed, word_plain (.inl h), h]
    cases s.pending with
    | none => nofun
    | some pending =>
      obtain ⟨o, _ | value⟩ := pending <;> nofun

/-- Words that reach a subcommand behind the entries of a part. -/
def HasFront (sub : Subcommand) (rest ws : List String) : Prop :=
  ∃ es front name, PartWords none es front ∧ Subcommand.ofName? name = some sub ∧
    ws = front ++ name :: rest

lemma HasFront.cons {w : String} (h : HasFront sub rest ws)
    (hentry : ∀ {es front}, PartWords none es front → ∃ e, PartWords none (e :: es) (w :: front)) :
    HasFront sub rest (w :: ws) := by
  obtain ⟨es, front, name, hes, hname, rfl⟩ := h
  obtain ⟨_, hwords⟩ := hentry hes
  exact ⟨_, w :: front, name, hwords, hname, rfl⟩

lemma HasFront.separate {o : Opt} {w value : String} (h : HasFront sub rest ws)
    (hknown : o.isKnownIn none = true) (htakes : o.takesValue = true) (hnames : Names o w.toList)
    (hplain : ¬ IsDashed value) : HasFront sub rest (w :: value :: ws) := by
  obtain ⟨es, front, name, hes, hname, rfl⟩ := h
  exact ⟨_, w :: value :: front, name, .separate hknown htakes hnames hplain hes, hname, rfl⟩

lemma HasFront.cluster {o : Opt} {c d : Char} {cs : List Char} {w : String}
    (h : HasFront sub rest (String.ofList ('-' :: d :: cs) :: ws))
    (hknown : o.isKnownIn none = true) (hflag : isFlag o = true) (hletter : letter? o = some c)
    (hd : d ≠ '-') (hw : w.toList = '-' :: c :: d :: cs) : HasFront sub rest (w :: ws) := by
  obtain ⟨es, front, name, hes, hname, hsplit⟩ := h
  cases front with
  | nil =>
    -- The letters are no subcommand.
    obtain ⟨rfl, -⟩ := List.cons.inj hsplit
    rw [ofName?_of_dashed ⟨_, _, String.toList_ofList⟩] at hname
    cases hname
  | cons w' front =>
    obtain ⟨rfl, rfl⟩ := List.cons.inj hsplit
    exact ⟨_, w :: front, name, .cluster hknown hflag hletter hd hw hes, hname, rfl⟩

/-- What an option in a word of its own takes before a subcommand that is reached is a value. -/
lemma exists_value {o : Opt} {given : List (Opt × String)} {next : Subcommand × List String}
    (h : (readToSubcommand ⟨given, some (o, none), false⟩ ws).toOption = some (s', some next)) :
    ∃ value later, ws = value :: later ∧ ¬ IsDashed value ∧
      (readToSubcommand ⟨given, some (o, some value), false⟩ later).toOption =
        some (s', some next) := by
  cases ws with
  | nil => cases h
  | cons value later =>
    rw [readToSubcommand_unnamed fun _ hawaits => (by cases hawaits),
      Option.bind_eq_some_iff] at h
    obtain ⟨s₁, hvalue, h⟩ := h
    by_cases hdashed : IsDashed value
    · exfalso
      by_cases hv : value = "--"
      · rw [hv, word_dashes rfl] at hvalue
        obtain rfl := Option.some.inj hvalue
        exact readToSubcommand_trailing rfl h
      · rw [word_of_awaiting rfl rfl hdashed hv] at hvalue
        cases hvalue
    · rw [word_value rfl hdashed rfl] at hvalue
      obtain rfl := Option.some.inj hvalue
      exact ⟨value, later, rfl, hdashed, h⟩

/-- What stands before a subcommand that is reached. -/
lemma hasFront_of_read (n : Nat) (hn : wordsSize ws < n) (hready : s.isTrailing = false)
    (hawaits : s.awaitsValue = false)
    (h : (readToSubcommand s ws).toOption = some (s', some (sub, rest))) :
    HasFront sub rest ws := by
  induction n generalizing ws s with
  | zero => cases hn
  | succ n ih =>
    match ws with
    | [] => cases h
    | w :: ws =>
      cases hname : Subcommand.ofName? w with
      | some found =>
        rw [readToSubcommand_named hready hawaits hname] at h
        cases h
        exact ⟨[], [], w, .nil, hname, rfl⟩
      | none =>
        have hlater : wordsSize ws < n := by
          rw [wordsSize_cons] at hn
          omega
        rw [readToSubcommand_unnamed fun _ _ => hname, Option.bind_eq_some_iff] at h
        obtain ⟨s₁, hword, h⟩ := h
        cases wordForm w fun _ => hname with
        | dashes hw =>
          rw [hw, word_dashes hready] at hword
          obtain rfl := Option.some.inj hword
          exact (readToSubcommand_trailing rfl h).elim
        | flag hknown hflag hnames =>
          rw [word_of_names hready hknown hnames, if_neg (takesValue_of_isFlag hflag)] at hword
          obtain ⟨hready₁, hawaits₁⟩ := ready_of_flag hflag hword
          have hfront := ih hlater (hready₁.trans hready) hawaits₁ h
          exact hfront.cons fun hes => ⟨_, .flag hknown hflag hnames hes⟩
        | @cluster o c d cs hknown hflag hletter hd hw =>
          rw [word_short hready hw (letter?_ne_dash hletter), short_cons hletter hknown,
            if_neg (takesValue_of_isFlag hflag), toOption_bind, Option.bind_eq_some_iff] at hword
          obtain ⟨s₀, hflagged, hword⟩ := hword
          obtain ⟨hready₀, hawaits₀⟩ := ready_of_flag hflag hflagged
          rw [hready] at hready₀
          have hletters : (String.ofList ('-' :: d :: cs)).toList = '-' :: d :: cs :=
            String.toList_ofList
          have hfound : (readToSubcommand s₀ (String.ofList ('-' :: d :: cs) :: ws)).toOption =
              some (s', some (sub, rest)) := by
            rw [readToSubcommand_unnamed fun _ _ => ofName?_of_dashed ⟨_, _, hletters⟩,
              word_short hready₀ hletters hd, hword]
            exact h
          have hsmaller := Nat.lt_of_lt_of_le (wordsSize_letters hw) (Nat.le_of_lt_succ hn)
          exact (ih hsmaller hready₀ hawaits₀ hfound).cluster hknown hflag hletter hd hw
        | @names o hknown htakes hnames =>
          rw [word_of_names hready hknown hnames, if_pos htakes, option_toOption_none, hready,
            Option.map_eq_some_iff] at hword
          obtain ⟨given, -, rfl⟩ := hword
          obtain ⟨value, later, rfl, hplain, h⟩ := exists_value h
          have hrest : wordsSize later < n := by
            rw [wordsSize_cons] at hlater
            omega
          exact (ih hrest rfl rfl h).separate hknown htakes hnames hplain
        | attaches hknown htakes hattaches =>
          rw [word_of_attaches hready hknown htakes hattaches, option_toOption_some,
            hready] at hword
          simp only [Option.bind_eq_some_iff, Option.map_eq_some_iff] at hword
          obtain ⟨_, -, given, -, rfl⟩ := hword
          exact (ih hlater rfl rfl h).cons fun hes => ⟨_, .attached hknown htakes hattaches hes⟩
        | fault hfaulty =>
          rw [word_of_faulty hready hawaits hfaulty] at hword
          cases hword

/-- Every command line that is accepted has entries. -/
theorem exists_lineWords {arguments : Arguments} (h : parse ws env = .ok arguments) :
    ∃ sub before after, LineWords sub before after ws := by
  have hparsed := congrArg Except.toOption h
  rw [parse_toOption] at hparsed
  obtain ⟨⟨s, next⟩, hfound, hparsed⟩ := Option.bind_eq_some_iff.mp hparsed
  obtain ⟨given, -, hparsed⟩ := Option.bind_eq_some_iff.mp hparsed
  obtain ⟨⟨sub, rest⟩, rfl, -⟩ := Option.bind_eq_some_iff.mp hparsed
  obtain ⟨before, front, name, hbefore, hname, rfl⟩ :=
    hasFront_of_read _ (Nat.lt_succ_self _) rfl rfl hfound
  obtain ⟨after, hafter⟩ := exists_partWords _ (Nat.lt_succ_self (wordsSize rest))
  exact ⟨sub, before, after, .intro hbefore hname hafter⟩

end Coverage

end SqlMigrations.Proofs
