import Mathlib.Tactic.MkIffOfInductiveProp
import SqlMigrations.Proofs.JoinedNames

/-!
# Walks on a disk

Where the moves of a path lead, said without a limit on links: each link that is met puts the moves
of its target in front of those that are left. Resolution finds exactly what such a walk leads to
through forty links at most, so a walk to a directory and one that goes on from there make the walk
of the joined path.
-/

namespace SqlMigrations.Proofs

open Disk (Item Move)

/-- Moves from a directory lead to an item through some number of links. -/
inductive Leads (d : Disk) : Nat → Place → List Move → Place → Item → Prop
  | done {here : Place} : Leads d 0 here [] here .directory
  | stay {links : Nat} {here place : Place} {rest : List Move} {item : Item}
      (further : Leads d links here rest place item) :
      Leads d links here (.stay :: rest) place item
  | up {links : Nat} {here place : Place} {rest : List Move} {item : Item}
      (further : Leads d links here.dropLast rest place item) :
      Leads d links here (.up :: rest) place item
  | enter {links : Nat} {here place : Place} {name : FileName} {rest : List Move} {item : Item}
      (short : name.length ≤ Disk.nameLimit) (there : d.itemAt? (here ++ [name]) = some .directory)
      (further : Leads d links (here ++ [name]) rest place item) :
      Leads d links here (.enter name :: rest) place item
  | file {here : Place} {name : FileName} {content : ByteArray}
      (short : name.length ≤ Disk.nameLimit)
      (there : d.itemAt? (here ++ [name]) = some (.file content)) :
      Leads d 0 here [.enter name] (here ++ [name]) (.file content)
  | link {links : Nat} {here place : Place} {name : FileName} {target : ByteArray}
      {rest : List Move} {item : Item} (short : name.length ≤ Disk.nameLimit)
      (there : d.itemAt? (here ++ [name]) = some (.link target))
      (further : Leads d links (if (Disk.moves target).1 then [] else here)
        ((Disk.moves target).2 ++ rest) place item) :
      Leads d (links + 1) here (.enter name :: rest) place item

/-- What leads on from where a walk stops. -/
def LeadsOn (d : Disk) (links : Nat) (place : Place) (item : Item) : Disk.Walk → Prop
  | .found place' item' => links = 0 ∧ place' = place ∧ item' = item
  | .meetsLink parent target rest => ∃ n, links = n + 1 ∧
      Leads d n (if (Disk.moves target).1 then [] else parent) ((Disk.moves target).2 ++ rest)
        place item
  | .vacant _ | .fails _ => False

section Leads

variable {d : Disk} {links links' : Nat} {here place place' : Place} {name : FileName}
  {todo rest : List Move} {item item' : Item}

lemma leads_nil : Leads d links here [] place item ↔
    LeadsOn d links place item (.found here .directory) := by
  constructor
  · intro h
    cases h
    exact ⟨rfl, rfl, rfl⟩
  · rintro ⟨rfl, rfl, rfl⟩
    exact .done

lemma leads_stay : Leads d links here (.stay :: rest) place item ↔
    Leads d links here rest place item := by
  constructor
  · intro h
    cases h with
    | stay further => exact further
  · exact .stay

lemma leads_up : Leads d links here (.up :: rest) place item ↔
    Leads d links here.dropLast rest place item := by
  constructor
  · intro h
    cases h with
    | up further => exact further
  · exact .up

lemma leads_enter (short : name.length ≤ Disk.nameLimit) :
    Leads d links here (.enter name :: rest) place item ↔
      match d.itemAt? (here ++ [name]) with
      | none => False
      | some .directory => Leads d links (here ++ [name]) rest place item
      | some (.file content) =>
        rest = [] ∧ LeadsOn d links place item (.found (here ++ [name]) (.file content))
      | some (.link target) => LeadsOn d links place item (.meetsLink here target rest) := by
  constructor
  · intro h
    cases h with
    | enter _ there further =>
      rw [there]
      exact further
    | file _ there =>
      rw [there]
      exact ⟨rfl, rfl, rfl, rfl⟩
    | link _ there further =>
      rw [there]
      exact ⟨_, rfl, further⟩
  · intro h
    cases there : d.itemAt? (here ++ [name]) with
    | none =>
      rw [there] at h
      exact h.elim
    | some found =>
      rw [there] at h
      cases found with
      | directory => exact .enter short there h
      | file content =>
        obtain ⟨rfl, rfl, rfl, rfl⟩ := h
        exact .file short there
      | link target =>
        obtain ⟨n, rfl, further⟩ := h
        exact .link short there further

lemma leads_iff_walk : Leads d links here todo place item ↔
    LeadsOn d links place item (d.walk here todo) := by
  fun_induction Disk.walk d here todo with
  | case1 => exact leads_nil
  | case2 here rest ih => exact leads_stay.trans ih
  | case3 here rest ih => exact leads_up.trans ih
  | case4 here name rest hlong =>
    refine ⟨fun h => ?_, False.elim⟩
    cases h <;> omega
  | case5 here name hshort there => rw [leads_enter (Nat.not_lt.mp hshort), there]; rfl
  | case6 here name rest hshort there => rw [leads_enter (Nat.not_lt.mp hshort), there]; rfl
  | case7 here name rest hshort there ih =>
    rw [leads_enter (Nat.not_lt.mp hshort), there]
    exact ih
  | case8 here name rest hshort target there =>
    rw [leads_enter (Nat.not_lt.mp hshort), there]
  | case9 here name hshort content there =>
    rw [leads_enter (Nat.not_lt.mp hshort), there]
    exact and_iff_right rfl
  | case10 here name rest hshort content there hrest =>
    rw [leads_enter (Nat.not_lt.mp hshort), there]
    exact iff_of_false (fun h => hrest h.1) id

/-- Resolution finds what the moves lead to through no more links than it may follow. -/
theorem follow_eq_ok : d.follow links here todo = .ok (place, some item) ↔
    ∃ n ≤ links, Leads d n here todo place item := by
  induction links generalizing here todo with
  | zero =>
    unfold Disk.follow
    simp only [leads_iff_walk]
    cases d.walk here todo <;> simp [LeadsOn]
  | succ links ih =>
    have hwalk : ∀ n, Leads d n here todo place item ↔
        LeadsOn d n place item (d.walk here todo) := fun n => leads_iff_walk
    unfold Disk.follow
    simp only [hwalk]
    cases d.walk here todo with
    | found => simp [LeadsOn]
    | vacant => simp [LeadsOn]
    | fails => simp [LeadsOn]
    | meetsLink parent target rest =>
      simp only [LeadsOn, ih]
      constructor
      · rintro ⟨n, hn, h⟩
        exact ⟨n + 1, Nat.succ_le_succ hn, n, rfl, h⟩
      · rintro ⟨_, hn, n, rfl, h⟩
        exact ⟨n, Nat.le_of_succ_le_succ hn, h⟩

theorem Leads.unique (h : Leads d links here todo place item)
    (h' : Leads d links' here todo place' item') : place' = place ∧ item' = item := by
  have hfollow := follow_eq_ok.mpr ⟨links, Nat.le_add_right links links', h⟩
  rw [follow_eq_ok.mpr ⟨links', Nat.le_add_left links' links, h'⟩] at hfollow
  simpa using hfollow

/-- Moves that are followed by others lead to a directory, from which the others go on. -/
theorem leads_append (hrest : rest ≠ []) : Leads d links here (todo ++ rest) place item ↔
    ∃ k n mid, k + n = links ∧ Leads d k here todo mid .directory ∧
      Leads d n mid rest place item := by
  constructor
  · intro h
    generalize hall : todo ++ rest = all at h
    -- At each step either the first moves are used up already, and what is left of the walk is that
    -- of the others, or the step is one of the first moves.
    induction h generalizing todo with
    | done => exact absurd (List.append_eq_nil_iff.mp hall).2 hrest
    | stay further ih =>
      rcases List.append_eq_cons_iff.mp hall with ⟨rfl, rfl⟩ | ⟨todo, rfl, rfl⟩
      · exact ⟨0, _, _, Nat.zero_add _, .done, .stay further⟩
      · obtain ⟨k, n, mid, hsum, hfirst, hsecond⟩ := ih rfl
        exact ⟨k, n, mid, hsum, .stay hfirst, hsecond⟩
    | up further ih =>
      rcases List.append_eq_cons_iff.mp hall with ⟨rfl, rfl⟩ | ⟨todo, rfl, rfl⟩
      · exact ⟨0, _, _, Nat.zero_add _, .done, .up further⟩
      · obtain ⟨k, n, mid, hsum, hfirst, hsecond⟩ := ih rfl
        exact ⟨k, n, mid, hsum, .up hfirst, hsecond⟩
    | enter short there further ih =>
      rcases List.append_eq_cons_iff.mp hall with ⟨rfl, rfl⟩ | ⟨todo, rfl, rfl⟩
      · exact ⟨0, _, _, Nat.zero_add _, .done, .enter short there further⟩
      · obtain ⟨k, n, mid, hsum, hfirst, hsecond⟩ := ih rfl
        exact ⟨k, n, mid, hsum, .enter short there hfirst, hsecond⟩
    | file short there =>
      rcases List.append_eq_cons_iff.mp hall with ⟨rfl, rfl⟩ | ⟨todo, rfl, hnil⟩
      · exact ⟨0, _, _, Nat.zero_add _, .done, .file short there⟩
      · exact absurd (List.append_eq_nil_iff.mp hnil.symm).2 hrest
    | link short there further ih =>
      rcases List.append_eq_cons_iff.mp hall with ⟨rfl, rfl⟩ | ⟨todo, rfl, rfl⟩
      · exact ⟨0, _, _, Nat.zero_add _, .done, .link short there further⟩
      · obtain ⟨k, n, mid, hsum, hfirst, hsecond⟩ := ih (List.append_assoc _ _ _)
        exact ⟨k + 1, n, mid, by omega, .link short there hfirst, hsecond⟩
  · rintro ⟨k, n, mid, rfl, hfirst, hsecond⟩
    generalize hdir : Item.directory = dir at hfirst
    induction hfirst with
    | done => rwa [Nat.zero_add]
    | stay _ ih => exact .stay (ih hsecond hdir)
    | up _ ih => exact .up (ih hsecond hdir)
    | enter short there _ ih => exact .enter short there (ih hsecond hdir)
    | file => cases hdir
    | link short there _ ih =>
      have hfurther := ih hsecond hdir
      rw [List.append_assoc] at hfurther
      rw [Nat.add_right_comm]
      exact .link short there hfurther

lemma leads_append_stay : Leads d links here (todo ++ [.stay]) place .directory ↔
    Leads d links here todo place .directory := by
  simp [leads_append (List.cons_ne_nil _ _), leads_stay, leads_nil, LeadsOn]

end Leads

/-- A path that can be looked up: it is not empty, has no NUL and is not too long. -/
structure Admissible (path : Path) : Prop where
  nonempty : path.text ≠ ""
  nulless : 0 ∉ utf8 path.text
  short : path.text.utf8ByteSize ≤ Disk.pathLimit

/-- The moves of a path lead to an item through some number of links. -/
def PathLeads (d : Disk) (links : Nat) (path : Path) (place : Place) (item : Item) : Prop :=
  Leads d links (if (Disk.moves path.text.toUTF8).1 then [] else d.cwd)
    (Disk.moves path.text.toUTF8).2 place item

section Paths

variable {d : Disk} {links : Nat} {path : Path} {place : Place} {item : Item}

lemma locate_eq_ok : d.locate path = .ok (place, some item) ↔
    Admissible path ∧ ∃ n ≤ Disk.linkLimit, PathLeads d n path place item := by
  unfold Disk.locate
  dsimp only
  by_cases hnul : 0 ∈ utf8 path.text
  · have hcontains : path.text.toUTF8.data.toList.contains 0 = true :=
      List.contains_iff_mem.mpr hnul
    rw [if_pos hcontains]
    exact iff_of_false nofun fun h => h.1.nulless hnul
  · have hcontains : ¬ path.text.toUTF8.data.toList.contains 0 = true := fun h =>
      hnul (List.contains_iff_mem.mp h)
    rw [if_neg hcontains]
    by_cases hempty : path.text = ""
    · have hbytes : path.text.toUTF8.isEmpty = true := by rw [hempty]; rfl
      rw [if_pos hbytes]
      exact iff_of_false nofun fun h => h.1.nonempty hempty
    · have hbytes : ¬ path.text.toUTF8.isEmpty = true := by
        intro h
        have hsize : path.text.utf8ByteSize = 0 := beq_iff_eq.mp h
        exact hempty (String.utf8ByteSize_eq_zero_iff.mp hsize)
      rw [if_neg hbytes]
      by_cases hlong : Disk.pathLimit < path.text.toUTF8.size
      · rw [if_pos hlong]
        exact iff_of_false nofun fun h => absurd h.1.short (Nat.not_le.mpr hlong)
      · rw [if_neg hlong]
        have hadmissible : Admissible path := ⟨hempty, hnul, Nat.not_lt.mp hlong⟩
        exact follow_eq_ok.trans (and_iff_right hadmissible).symm

theorem resolve_eq_ok : d.resolve path = .ok (place, item) ↔
    Admissible path ∧ ∃ n ≤ Disk.linkLimit, PathLeads d n path place item := by
  rw [← locate_eq_ok]
  unfold Disk.resolve
  cases hlocate : d.locate path with
  | error e => simp [bind, Except.bind]
  | ok found =>
    obtain ⟨place', item'⟩ := found
    cases item' <;> simp [bind, Except.bind]

lemma readBytes_eq_ok {bytes : ByteArray} : d.readBytes path = .ok bytes ↔
    ∃ place, d.resolve path = .ok (place, .file bytes) := by
  unfold Disk.readBytes
  cases hresolve : d.resolve path with
  | error e => simp [bind, Except.bind]
  | ok found =>
    obtain ⟨place, item⟩ := found
    cases item <;> simp [bind, Except.bind, eq_comm]

lemma isFile_eq_true : d.isFile path = true ↔ ∃ bytes, d.readBytes path = .ok bytes := by
  simp only [readBytes_eq_ok]
  unfold Disk.isFile
  cases hresolve : d.resolve path with
  | error e => simp
  | ok found =>
    obtain ⟨place, item⟩ := found
    cases item <;> simp

lemma listDir_eq_ok {listing : List DirEntry} : d.listDir path = .ok listing ↔
    ∃ place, d.resolve path = .ok (place, .directory) ∧
      listing = ((d.namesIn place).filterMap Disk.nameText?).map fun name =>
        ⟨name, d.isFile (path.join ⟨name⟩)⟩ := by
  unfold Disk.listDir
  cases hresolve : d.resolve path with
  | error e => simp [bind, Except.bind]
  | ok found =>
    obtain ⟨place, item⟩ := found
    cases item <;> simp [bind, Except.bind, eq_comm]

end Paths

section Joined

variable {d : Disk} {links : Nat} {path : Path} {place : Place} {item : Item} {name : String}

/-- A slash in front of a path makes its walk start at the root, and else stays. -/
lemma pathLeads_iff : PathLeads d links path place item ↔
    Leads d links (if (utf8 path.text).head? = some 47 then [] else d.cwd)
      ((Disk.pieces (utf8 path.text)).map Disk.moveOf) place item := by
  unfold PathLeads Disk.moves
  split
  · next rest hbytes =>
    have hslash : utf8 path.text = 47 :: rest := hbytes
    rw [hslash]
    exact leads_stay.symm
  · next hbytes =>
    have hhead : (utf8 path.text).head? ≠ some 47 := by
      intro hhead
      obtain ⟨rest, hrest⟩ := List.head?_eq_some_iff.mp hhead
      exact hbytes rest hrest
    rw [if_neg hhead]
    rfl

/-- A name that a path can end with to enter it. -/
@[mk_iff]
structure Enterable (name : FileName) : Prop where
  slashless : 47 ∉ name
  named : Disk.moveOf name = .enter name

instance (name : FileName) : Decidable (Enterable name) :=
  decidable_of_iff' _ (enterable_iff name)

lemma Enterable.head? (h : Enterable (utf8 name)) : name.toList.head? ≠ some '/' := by
  intro hslash
  have hbyte : 47 ∈ utf8 name := by
    rw [utf8_eq_flatMap]
    exact List.mem_flatMap.mpr ⟨'/', List.mem_of_mem_head? hslash, by decide⟩
  exact h.slashless hbyte

/-- A path joined with a name leads through the directory that the path leads to. -/
theorem pathLeads_join (hname : Enterable (utf8 name)) (hpath : path.text ≠ "") :
    PathLeads d links (path.join ⟨name⟩) place item ↔
      ∃ k n mid, k + n = links ∧ PathLeads d k path mid .directory ∧
        Leads d n mid [.enter (utf8 name)] place item := by
  rcases join_cases path hname.head? with ⟨hempty, -⟩ | ⟨front, htext, hjoin⟩
  · exact absurd hempty hpath
  have hjoined : utf8 (path.join ⟨name⟩).text = utf8 front ++ 47 :: utf8 name := by
    rw [hjoin, utf8_append, utf8_append, List.append_assoc]
    rfl
  have hmoves : (Disk.pieces (utf8 front ++ 47 :: utf8 name)).map Disk.moveOf =
      (Disk.pieces (utf8 front)).map Disk.moveOf ++ [.enter (utf8 name)] := by
    rw [diskPieces_append_slash, diskPieces_eq_singleton hname.slashless, List.map_append,
      List.map_singleton, hname.named]
  have hdir : ∀ k mid, Leads d k
      (if (utf8 front ++ 47 :: utf8 name).head? = some 47 then [] else d.cwd)
      ((Disk.pieces (utf8 front)).map Disk.moveOf) mid .directory ↔
        PathLeads d k path mid .directory := by
    intro k mid
    rcases htext with htext | ⟨htext, hfront⟩
    · have hbytes : utf8 path.text = utf8 front ++ [47] := by
        rw [htext, utf8_append]
        rfl
      have hhead : (utf8 front ++ 47 :: utf8 name).head? = (utf8 front ++ [47]).head? := by
        cases utf8 front <;> rfl
      have hstay : (Disk.pieces (utf8 front ++ [47])).map Disk.moveOf =
          (Disk.pieces (utf8 front)).map Disk.moveOf ++ [.stay] := by
        rw [diskPieces_append_slash, List.map_append]
        rfl
      rw [pathLeads_iff, hbytes, hhead, hstay]
      exact leads_append_stay.symm
    · have hbytes : utf8 front ≠ [] := fun hnil => hfront (utf8_inj.mp (hnil.trans rfl))
      rw [pathLeads_iff, htext, List.head?_append_of_ne_nil _ hbytes]
  rw [pathLeads_iff, hjoined, hmoves, leads_append (List.cons_ne_nil _ _)]
  simp only [hdir]

end Joined

end SqlMigrations.Proofs
