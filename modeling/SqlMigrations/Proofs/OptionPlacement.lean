import SqlMigrations.Proofs.CommandLines

/-!
# Places of global options

The global options mean the same before and after the subcommand. What a command line comes to
depends only on the options themselves: in each part none may be repeated, and a value is looked up
by the name of its option. Each of these is kept when options change places.
-/

namespace SqlMigrations.Proofs

open Cli (Arguments GlobalArgs Opt Subcommand parse readVersion? valueOf?)

/-- The options that every subcommand has. -/
def isGlobal : Opt → Bool
  | .verbose | .projectDir | .config | .target | .database | .dir => true
  | .toVersion | .json | .help | .version => false

namespace Entry

/-- Whether an entry gives a global option. -/
def isGlobal : Entry → Bool
  | .option o _ => Proofs.isGlobal o
  | .fault _ | .lacking _ | .ended _ => false

def option? : Entry → Option (Opt × String)
  | .option o value => some (o, value)
  | .fault _ | .lacking _ | .ended _ => none

/-- Entries that a part accepts, if it has no option twice. -/
inductive Acceptable : Entry → Prop
  | option {o : Opt} {value : String} (readable : o = .toVersion → readVersion? value ≠ none) :
      Acceptable (.option o value)
  | ended : Acceptable (.ended [])

end Entry

/-- The options that entries give. -/
def optionsOf (es : List Entry) : List (Opt × String) := es.filterMap Entry.option?

/-- Entries all of which are accepted, with no option twice. -/
def PartAccepted (es : List Entry) : Prop :=
  (∀ e ∈ es, e.Acceptable) ∧ ((optionsOf es).map Prod.fst).Nodup

/-- A change of places: the same global options in whatever parts, and the same other entries in
each part. -/
structure Moved (before after before' after' : List Entry) : Prop where
  globals : ((before ++ after).filter Entry.isGlobal).Perm
    ((before' ++ after').filter Entry.isGlobal)
  front : (before.filter fun e => !e.isGlobal).Perm (before'.filter fun e => !e.isGlobal)
  back : (after.filter fun e => !e.isGlobal).Perm (after'.filter fun e => !e.isGlobal)

/-- Every global option is given once at most. -/
def GlobalsOnce (before after : List Entry) : Prop :=
  ((optionsOf ((before ++ after).filter Entry.isGlobal)).map Prod.fst).Nodup

section Parts

variable {e : Entry} {es es' : List Entry} {o : Opt} {value : String}
  {given result : List (Opt × String)} {p : Entry → Bool}

lemma optionsOf_cons : optionsOf (e :: es) = e.option?.toList ++ optionsOf es := by
  unfold optionsOf
  rw [List.filterMap_cons]
  cases e.option? <;> rfl

lemma addOption_eq_some : addOption given o value = some result ↔
    o ∉ given.map Prod.fst ∧ (o = .toVersion → readVersion? value ≠ none) ∧
      given ++ [(o, value)] = result := by
  have hthere : (given.any fun g => g.1 == o) = true ↔ o ∈ given.map Prod.fst := by
    simp
  unfold addOption
  split_ifs with hany hvalue
  · simp [hthere.mp hany]
  · simp [hvalue.1, hvalue.2]
  · have hreadable : o = .toVersion → readVersion? value ≠ none := fun h hnone => hvalue ⟨h, hnone⟩
    simp only [Option.some.injEq, mt hthere.mpr hany, not_false_eq_true, true_and,
      iff_true_intro hreadable]

lemma addEntry_eq_some (hgiven : (given.map Prod.fst).Nodup) : addEntry given e = some result ↔
    e.Acceptable ∧ ((given ++ e.option?.toList).map Prod.fst).Nodup ∧
      given ++ e.option?.toList = result := by
  match e with
  | .option o value =>
    have hacceptable : (Entry.option o value).Acceptable ↔
        (o = .toVersion → readVersion? value ≠ none) :=
      ⟨fun h => by cases h with | option h => exact h, .option⟩
    have hnodup : ((given ++ [(o, value)]).map Prod.fst).Nodup ↔ o ∉ given.map Prod.fst := by
      rw [List.map_append, List.map_singleton, ← List.concat_eq_append, List.nodup_concat]
      simp [hgiven]
    simp only [addEntry, addOption_eq_some, hacceptable, Entry.option?, Option.toList_some, hnodup]
    exact and_left_comm
  | .ended [] =>
    simp only [addEntry, Entry.option?, Option.toList_none, List.append_nil, hgiven, true_and,
      iff_true_intro Entry.Acceptable.ended, Option.some.injEq]
  | .fault _ | .lacking _ | .ended (_ :: _) =>
    constructor
    · nofun
    · rintro ⟨⟨⟩, -⟩

lemma foldlM_addEntry_eq_some (hgiven : (given.map Prod.fst).Nodup) :
    es.foldlM addEntry given = some result ↔ (∀ e ∈ es, e.Acceptable) ∧
      ((given ++ optionsOf es).map Prod.fst).Nodup ∧ given ++ optionsOf es = result := by
  induction es generalizing given with
  | nil => simp [optionsOf, hgiven]
  | cons e es ih =>
    rw [List.foldlM_cons, Option.bind_eq_bind, Option.bind_eq_some_iff, List.forall_mem_cons,
      optionsOf_cons, ← List.append_assoc]
    constructor
    · rintro ⟨_, hentry, hlater⟩
      obtain ⟨hacceptable, hnodup, rfl⟩ := (addEntry_eq_some hgiven).mp hentry
      obtain ⟨hall, hlater⟩ := (ih hnodup).mp hlater
      exact ⟨⟨hacceptable, hall⟩, hlater⟩
    · rintro ⟨⟨hacceptable, hall⟩, hnodup, rfl⟩
      have hnext : ((given ++ e.option?.toList).map Prod.fst).Nodup :=
        hnodup.sublist ((List.sublist_append_left _ _).map _)
      exact ⟨_, (addEntry_eq_some hgiven).mpr ⟨hacceptable, hnext, rfl⟩,
        (ih hnext).mpr ⟨hall, hnodup, rfl⟩⟩

lemma foldlM_nil_eq_some :
    es.foldlM addEntry [] = some result ↔ PartAccepted es ∧ optionsOf es = result := by
  have hnil : (([] : List (Opt × String)).map Prod.fst).Nodup := List.nodup_nil
  rw [foldlM_addEntry_eq_some hnil, List.nil_append]
  exact and_assoc.symm

lemma mem_names_filter (h : o ∈ (optionsOf (es.filter p)).map Prod.fst) :
    ∃ value, Entry.option o value ∈ es ∧ p (.option o value) = true := by
  obtain ⟨⟨_, value⟩, hoption, rfl⟩ := List.mem_map.mp h
  obtain ⟨e, hmem, he⟩ := List.mem_filterMap.mp hoption
  cases e with
  | option o' value' =>
    cases he
    exact ⟨value, List.mem_filter.mp hmem⟩
  | fault | lacking | ended => cases he

/-- A lookup among the entries of a kind that has all entries of the option. -/
lemma lookup_optionsOf_filter (p : Entry → Bool) (h : ∀ value, p (.option o value) = true) :
    (optionsOf (es.filter p)).lookup o = (optionsOf es).lookup o := by
  induction es with
  | nil => rfl
  | cons e es ih =>
    rw [optionsOf_cons, List.lookup_append, List.filter_cons]
    split_ifs with hp
    · rw [optionsOf_cons, List.lookup_append, ih]
    · have hother : e.option?.toList.lookup o = none := by
        cases e with
        | option o' value =>
          have hne : o ≠ o' := by
            rintro rfl
            exact hp (h value)
          simp [Entry.option?, lookup_cons_ite, hne]
        | fault | lacking | ended => rfl
      rw [hother, Option.none_or, ih]

end Parts

section Moves

variable {sub : Subcommand} {before after before' after' es es' : List Entry}
  {words words' : List String} {env : Option String} {o : Opt}

lemma optionsOf_perm (h : es.Perm es') : (optionsOf es).Perm (optionsOf es') := h.filterMap _

lemma optionsOf_append : optionsOf (es ++ es') = optionsOf es ++ optionsOf es' :=
  List.filterMap_append

/-- Where no global option is repeated, an option is repeated only if one of the others is. -/
lemma nodup_optionsOf_iff (h : ((optionsOf (es.filter Entry.isGlobal)).map Prod.fst).Nodup) :
    ((optionsOf es).map Prod.fst).Nodup ↔
      ((optionsOf (es.filter fun e => !e.isGlobal)).map Prod.fst).Nodup := by
  have hsplit := (optionsOf_perm (List.filter_append_perm Entry.isGlobal es)).map Prod.fst
  rw [optionsOf_append, List.map_append] at hsplit
  rw [← hsplit.nodup_iff, List.nodup_append]
  refine ⟨fun h => h.2.1, fun hothers => ⟨h, hothers, ?_⟩⟩
  rintro o hglobal _ hother rfl
  obtain ⟨_, -, hglobal⟩ := mem_names_filter hglobal
  obtain ⟨_, -, hother⟩ := mem_names_filter hother
  simp only [Entry.isGlobal] at hglobal hother
  rw [hglobal] at hother
  cases hother

/-- Parts whose other entries are the same repeat an option together. -/
lemma nodup_optionsOf_congr (h : ((optionsOf (es.filter Entry.isGlobal)).map Prod.fst).Nodup)
    (h' : ((optionsOf (es'.filter Entry.isGlobal)).map Prod.fst).Nodup)
    (hothers : (es.filter fun e => !e.isGlobal).Perm (es'.filter fun e => !e.isGlobal)) :
    ((optionsOf es).map Prod.fst).Nodup ↔ ((optionsOf es').map Prod.fst).Nodup := by
  rw [nodup_optionsOf_iff h, nodup_optionsOf_iff h',
    ((optionsOf_perm hothers).map Prod.fst).nodup_iff]

lemma Moved.perm (h : Moved before after before' after') :
    (before ++ after).Perm (before' ++ after') := by
  have hothers : ((before ++ after).filter fun e => !e.isGlobal).Perm
      ((before' ++ after').filter fun e => !e.isGlobal) := by
    rw [List.filter_append, List.filter_append]
    exact h.front.append h.back
  exact (List.filter_append_perm Entry.isGlobal _).symm.trans
    ((h.globals.append hothers).trans (List.filter_append_perm Entry.isGlobal _))

lemma Moved.once (h : Moved before after before' after') (honce : GlobalsOnce before after) :
    GlobalsOnce before' after' :=
  ((optionsOf_perm h.globals).map Prod.fst).nodup_iff.mp honce

lemma GlobalsOnce.parts (h : GlobalsOnce before after) :
    ((optionsOf (before.filter Entry.isGlobal)).map Prod.fst).Nodup ∧
      ((optionsOf (after.filter Entry.isGlobal)).map Prod.fst).Nodup := by
  unfold GlobalsOnce at h
  rw [List.filter_append, optionsOf_append, List.map_append, List.nodup_append] at h
  exact ⟨h.1, h.2.1⟩

/-- Both parts are accepted if and only if they are after a change of places. -/
lemma Moved.accepted_iff (h : Moved before after before' after')
    (honce : GlobalsOnce before after) :
    PartAccepted before ∧ PartAccepted after ↔ PartAccepted before' ∧ PartAccepted after' := by
  have hentries : (∀ e ∈ before ++ after, e.Acceptable) ↔
      ∀ e ∈ before' ++ after', e.Acceptable := by
    simp only [h.perm.mem_iff]
  have hfront : ((optionsOf before).map Prod.fst).Nodup ↔
      ((optionsOf before').map Prod.fst).Nodup :=
    nodup_optionsOf_congr honce.parts.1 (h.once honce).parts.1 h.front
  have hback : ((optionsOf after).map Prod.fst).Nodup ↔
      ((optionsOf after').map Prod.fst).Nodup :=
    nodup_optionsOf_congr honce.parts.2 (h.once honce).parts.2 h.back
  rw [List.forall_mem_append, List.forall_mem_append] at hentries
  unfold PartAccepted
  rw [and_and_and_comm, hentries, hfront, hback, and_and_and_comm]

/-- The value of a global option, which is that of the only entry that gives it. -/
lemma valueOf?_eq_lookup (honce : GlobalsOnce before after) (ho : isGlobal o = true) :
    valueOf? { given := optionsOf before } { given := optionsOf after } o =
      (optionsOf ((before ++ after).filter Entry.isGlobal)).lookup o := by
  have hperm := optionsOf_perm
    ((List.perm_append_comm : (before ++ after).Perm (after ++ before)).filter Entry.isGlobal)
  rw [lookup_perm hperm honce, lookup_optionsOf_filter Entry.isGlobal fun _ => ho,
    optionsOf_append, List.lookup_append]
  rfl

lemma Moved.valueOf? (h : Moved before after before' after') (honce : GlobalsOnce before after)
    (ho : isGlobal o = true) :
    Cli.valueOf? { given := optionsOf before } { given := optionsOf after } o =
      Cli.valueOf? { given := optionsOf before' } { given := optionsOf after' } o := by
  rw [valueOf?_eq_lookup honce ho, valueOf?_eq_lookup (h.once honce) ho]
  exact lookup_perm (optionsOf_perm h.globals) honce

/-- The value of an option of the subcommand. -/
lemma Moved.lookup (h : Moved before after before' after') (hafter : PartAccepted after)
    (ho : isGlobal o = false) :
    (optionsOf after).lookup o = (optionsOf after').lookup o := by
  have hothers (es : List Entry) :
      (optionsOf (es.filter fun e => !e.isGlobal)).lookup o = (optionsOf es).lookup o := by
    apply lookup_optionsOf_filter
    intro value
    rw [Entry.isGlobal, ho]
    rfl
  have hnodup : ((optionsOf (after.filter fun e => !e.isGlobal)).map Prod.fst).Nodup :=
    hafter.2.sublist ((List.filter_sublist.filterMap _).map _)
  rw [← hothers after, ← hothers after', lookup_perm (optionsOf_perm h.back) hnodup]

lemma Moved.argumentsOf (h : Moved before after before' after')
    (honce : GlobalsOnce before after) (hafter : PartAccepted after) :
    argumentsOf sub env (optionsOf before) (optionsOf after) =
      argumentsOf sub env (optionsOf before') (optionsOf after') := by
  have hcommand : sub.command { given := optionsOf after } =
      sub.command { given := optionsOf after' } := by
    cases sub with
    | run =>
      unfold Subcommand.command
      dsimp only
      rw [h.lookup hafter (rfl : isGlobal .toVersion = false)]
    | status =>
      unfold Subcommand.command
      dsimp only
      rw [h.lookup hafter (rfl : isGlobal .json = false)]
  unfold Proofs.argumentsOf Cli.globalArgs
  rw [hcommand, h.valueOf? honce (rfl : isGlobal .verbose = true),
    h.valueOf? honce (rfl : isGlobal .projectDir = true),
    h.valueOf? honce (rfl : isGlobal .config = true),
    h.valueOf? honce (rfl : isGlobal .target = true),
    h.valueOf? honce (rfl : isGlobal .database = true),
    h.valueOf? honce (rfl : isGlobal .dir = true)]

lemma parse_eq_some {arguments : Arguments} (hline : LineWords sub before after words) :
    (parse words env).toOption = some arguments ↔ (PartAccepted before ∧ PartAccepted after) ∧
      argumentsOf sub env (optionsOf before) (optionsOf after) = arguments := by
  rw [parse_of_words hline]
  simp only [Option.bind_eq_some_iff, Option.map_eq_some_iff, foldlM_nil_eq_some]
  constructor
  · rintro ⟨_, ⟨hbefore, rfl⟩, _, ⟨hafter, rfl⟩, rfl⟩
    exact ⟨⟨hbefore, hafter⟩, rfl⟩
  · rintro ⟨⟨hbefore, hafter⟩, rfl⟩
    exact ⟨_, ⟨hbefore, rfl⟩, _, ⟨hafter, rfl⟩, rfl⟩

/-- The global options mean the same before and after the subcommand. Two command lines with the
same subcommand come to the same, where the global options stand in whatever parts, order and
spelling, each once at most, and each part has the same other entries. A database that is given is
the one that counts, whatever the environment says. -/
theorem parse_of_moved (hline : LineWords sub before after words)
    (hline' : LineWords sub before' after' words') (honce : GlobalsOnce before after)
    (hmoved : Moved before after before' after') (env : Option String) :
    (parse words' env).toOption = (parse words env).toOption ∧
      ∀ arguments value, parse words env = .ok arguments →
        .option .database value ∈ before ++ after →
          arguments.global.database = some value := by
  constructor
  · ext arguments
    rw [parse_eq_some hline, parse_eq_some hline', ← hmoved.accepted_iff honce]
    refine and_congr_right fun haccepted => ?_
    rw [hmoved.argumentsOf honce haccepted.2]
  · intro arguments value hparse hgiven
    obtain ⟨-, rfl⟩ := (parse_eq_some hline).mp (congrArg Except.toOption hparse)
    have hlookup : (optionsOf ((before ++ after).filter Entry.isGlobal)).lookup .database =
        some value :=
      (lookup_eq_some_iff_mem honce).mpr
        (List.mem_filterMap.mpr ⟨_, List.mem_filter.mpr ⟨hgiven, rfl⟩, rfl⟩)
    change (Option.or _ env) = _
    rw [valueOf?_eq_lookup honce rfl, hlookup, Option.some_or]

end Moves

/-- Some global options before the subcommand and one after it. -/
def wordsBefore : List String := ["-vp", "run", "status", "--json", "--database=a.db"]

/-- The same options in other places. -/
def wordsAfter : List String := ["--database", "a.db", "status", "-prun", "--json", "--verbose"]

lemma Names.of_toList {o : Opt} {w : String} {cs : List Char} (h : Names o cs)
    (hw : w.toList = cs) : Names o w.toList := hw ▸ h

lemma Attaches.of_toList {o : Opt} {w : String} {value cs : List Char} (h : Attaches o value cs)
    (hw : w.toList = cs) : Attaches o value w.toList := hw ▸ h

lemma not_isDashed {w : String} (h : w.toList.head? ≠ some '-') : ¬ IsDashed w := by
  rintro ⟨c, cs, hw⟩
  rw [hw] at h
  exact h rfl

lemma lineWords_before : LineWords .status [.option .verbose "", .option .projectDir "run"]
    [.option .json "", .option .database "a.db"] wordsBefore := by
  have hfront : PartWords none [.option .verbose "", .option .projectDir "run"]
      ["-vp", "run"] :=
    .cluster rfl rfl rfl (by decide) (by decide) <| .separate rfl rfl
      ((Names.short rfl).of_toList String.toList_ofList) (not_isDashed (by decide)) .nil
  have hback : PartWords (some .status) [.option .json "", .option .database "a.db"]
      ["--json", "--database=a.db"] :=
    .flag rfl rfl (Names.long.of_toList (by decide)) <|
      .attached rfl rfl (Attaches.long.of_toList (by decide)) .nil
  exact .intro hfront rfl hback

lemma lineWords_after : LineWords .status [.option .database "a.db"]
    [.option .projectDir "run", .option .json "", .option .verbose ""] wordsAfter := by
  have hfront : PartWords none [.option .database "a.db"] ["--database", "a.db"] :=
    .separate rfl rfl (Names.long.of_toList (by decide)) (not_isDashed (by decide)) .nil
  have hback : PartWords (some .status)
      [.option .projectDir "run", .option .json "", .option .verbose ""]
      ["-prun", "--json", "--verbose"] := by
    have hvalue : "run".toList = ['r', 'u', 'n'] := by decide
    exact .attached rfl rfl ((Attaches.adjoined rfl hvalue (by decide)).of_toList (by decide)) <|
      .flag rfl rfl (Names.long.of_toList (by decide)) <|
        .flag rfl rfl (Names.long.of_toList (by decide)) .nil
  exact .intro hfront rfl hback

/-- Both command lines come to the same, and the database in the environment does not count. -/
theorem parse_of_moved_status :
    (parse wordsAfter (some "env.db")).toOption = (parse wordsBefore (some "env.db")).toOption ∧
      ∃ arguments, parse wordsBefore (some "env.db") = .ok arguments ∧
        arguments.global.database = some "a.db" := by
  obtain ⟨hsame, hwins⟩ := parse_of_moved lineWords_before lineWords_after
    (by unfold GlobalsOnce; decide) ⟨by decide, by decide, by decide⟩ (some "env.db")
  have haccepted : (parse wordsBefore (some "env.db")).toOption =
      some ⟨{ verbose := true, projectDir := "run", database := "a.db" }, .status true⟩ := by
    decide
  have hparse := eq_ok_of_toOption haccepted
  exact ⟨hsame, _, hparse, hwins _ "a.db" hparse (by decide)⟩

end SqlMigrations.Proofs
