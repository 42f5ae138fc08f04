import Mathlib.Data.List.Nodup
import Mathlib.Data.List.Perm.Basic
import Mathlib.Data.String.Basic
import Mathlib.Tactic.MkIffOfInductiveProp
import SqlMigrations.Engine.Run
import SqlMigrations.Proofs.Results

/-!
# The order of discovered migrations

Discovery sorts the migrations that the kept names state and accepts them if no version is shared.
What it accepts is fixed by the kept names, whatever the order in which their directory is listed:
those names, each with what it states, in strictly ascending order of version. A file name
determines its migration, so no file name occurs twice either.
-/

namespace SqlMigrations.Proofs

open Migration

/-- The names of the entries that discovery keeps, in the order of the listing. -/
def keptNames (entries : List DirEntry) : List String :=
  (entries.filter isKept).map fun entry => entry.name

/-- A file name that states a version and a description. -/
def Accepted (name : String) : Prop := ∃ stated, parseFilename name = .ok stated

instance : DecidablePred Accepted := fun name =>
  decidable_of_iff ((parseFilename name).toOption.isSome = true) (by
    unfold Accepted
    cases parseFilename name <;> simp [Except.toOption])

/-- A migration that holds what its file name states. -/
def WellNamed (m : Migration) : Prop := parseFilename m.filename = .ok (m.version, m.description)

instance : DecidablePred WellNamed := fun m =>
  inferInstanceAs (Decidable (parseFilename m.filename = .ok (m.version, m.description)))

/-- What discovery makes of the kept names: none of them is lost, added, altered or repeated. -/
@[mk_iff]
structure Discovered (names : List String) (ms : List Migration) : Prop where
  ascending : ms.Pairwise fun a b => a.version < b.version
  filenames : (ms.map fun m => m.filename).Perm names
  distinct : (ms.map fun m => m.filename).Nodup
  stated : ∀ m ∈ ms, WellNamed m

instance {names : List String} {ms : List Migration} : Decidable (Discovered names ms) :=
  decidable_of_iff' _ (discovered_iff names ms)

section Sorting

variable {ms named : List Migration} {a b : Migration}

lemma orderLE_iff {a b : Migration} :
    orderLE a b = true ↔
      a.version < b.version ∨ a.version = b.version ∧ a.filename ≤ b.filename := by
  simp [orderLE]

lemma orderLE_trans (a b c : Migration) (hab : orderLE a b = true) (hbc : orderLE b c = true) :
    orderLE a c = true := by
  rw [orderLE_iff, UInt64.lt_iff_toNat_lt, ← UInt64.toNat_inj] at *
  rcases hab with hab | ⟨hab, hn⟩ <;> rcases hbc with hbc | ⟨hbc, hn'⟩
  · exact .inl (by omega)
  · exact .inl (by omega)
  · exact .inl (by omega)
  · exact .inr ⟨by omega, le_trans hn hn'⟩

lemma orderLE_total (a b : Migration) : (orderLE a b || orderLE b a) = true := by
  rw [Bool.or_eq_true, orderLE_iff, orderLE_iff]
  simp only [UInt64.lt_iff_toNat_lt, ← UInt64.toNat_inj]
  rcases Nat.lt_trichotomy a.version.toNat b.version.toNat with h | h | h
  · exact .inl (.inl h)
  · rcases le_total a.filename b.filename with hn | hn
    · exact .inl (.inr ⟨h, hn⟩)
    · exact .inr (.inr ⟨h.symm, hn⟩)
  · exact .inr (.inl h)

lemma orderLE_antisymm {a b : Migration} (hab : orderLE a b = true) (hba : orderLE b a = true) :
    a.filename = b.filename := by
  rw [orderLE_iff, UInt64.lt_iff_toNat_lt, ← UInt64.toNat_inj] at hab hba
  rcases hab with hab | ⟨hab, hn⟩ <;> rcases hba with hba | ⟨hba, hn'⟩
  · omega
  · omega
  · omega
  · exact le_antisymm hn hn'

lemma orderLE_of_lt (h : a.version < b.version) : orderLE a b = true := orderLE_iff.mpr (.inl h)

variable (named) in
lemma sorted_orderLE : (named.mergeSort orderLE).Pairwise fun a b => orderLE a b = true :=
  List.pairwise_mergeSort orderLE_trans orderLE_total named

/-- In a sorted list without neighbours of one version every version is below those after it. -/
lemma pairwise_version_lt {ms : List Migration} (hs : ms.Pairwise fun a b => orderLE a b = true)
    (hn : sharedVersion? ms = none) : ms.Pairwise fun a b => a.version < b.version := by
  induction ms with
  | nil => exact .nil
  | cons a ms ih =>
    cases ms with
    | nil => exact List.pairwise_singleton _ _
    | cons b rest =>
      rw [sharedVersion?] at hn
      split at hn
      · cases hn
      · rename_i hne
        have htail := ih hs.tail hn
        have hab : a.version < b.version := by
          rcases orderLE_iff.mp (List.rel_of_pairwise_cons hs List.mem_cons_self) with h | ⟨h, -⟩
          · exact h
          · exact absurd h hne
        refine List.pairwise_cons.mpr ⟨fun c hc => ?_, htail⟩
        rcases List.mem_cons.mp hc with rfl | hc
        · exact hab
        · exact UInt64.lt_trans hab (List.rel_of_pairwise_cons htail hc)

lemma nodup_of_ascending (h : ms.Pairwise fun a b => a.version < b.version) :
    (ms.map fun m => m.version).Nodup :=
  List.pairwise_map.mpr (h.imp fun hlt => UInt64.ne_of_lt hlt)

lemma sharedVersion?_eq_some (h : sharedVersion? ms = some (a, b)) : ∃ before rest,
    ms = before ++ a :: b :: rest ∧ a.version = b.version ∧
      sharedVersion? (before ++ [a]) = none := by
  fun_induction sharedVersion? ms with
  | case1 x y rest hxy =>
    obtain ⟨rfl, rfl⟩ := Prod.mk.inj (Option.some.inj h)
    exact ⟨[], rest, rfl, hxy, rfl⟩
  | case2 x y rest hxy ih =>
    obtain ⟨before, rest', heq, hab, hnone⟩ := ih h
    refine ⟨x :: before, rest', by rw [heq]; rfl, hab, ?_⟩
    cases before with
    | nil =>
      obtain ⟨rfl, -⟩ := List.cons.inj heq
      simp [sharedVersion?, hxy]
    | cons z before =>
      obtain ⟨rfl, -⟩ := List.cons.inj heq
      simpa [sharedVersion?, hxy] using hnone
  | case3 => cases h

/-- Among sorted migrations no two neighbours share a version if and only if no two at all do. -/
lemma sharedVersion?_eq_none (hs : ms.Pairwise fun a b => orderLE a b = true) :
    sharedVersion? ms = none ↔ (ms.map fun m => m.version).Nodup := by
  constructor
  · exact fun h => nodup_of_ascending (pairwise_version_lt hs h)
  · intro h
    rw [Option.eq_none_iff_forall_ne_some]
    rintro ⟨a, b⟩ hab
    obtain ⟨before, rest, rfl, hversion, -⟩ := sharedVersion?_eq_some hab
    simp [List.nodup_append, hversion] at h

end Sorting

section Names

variable {names : List String} {ms named : List Migration} {a b : Migration}

lemma ofFilename_eq_ok {name : String} {m : Migration} :
    ofFilename name = .ok m ↔ m.filename = name ∧ WellNamed m := by
  unfold ofFilename WellNamed
  rw [map_eq_ok]
  constructor
  · rintro ⟨⟨version, description⟩, hparse, rfl⟩
    exact ⟨rfl, hparse⟩
  · rintro ⟨rfl, hparse⟩
    exact ⟨_, hparse, rfl⟩

lemma exists_ofFilename {name : String} : (∃ m, ofFilename name = .ok m) ↔ Accepted name := by
  constructor
  · rintro ⟨m, hm⟩
    obtain ⟨rfl, hstated⟩ := ofFilename_eq_ok.mp hm
    exact ⟨_, hstated⟩
  · rintro ⟨⟨version, description⟩, hparse⟩
    exact ⟨⟨version, description, name⟩, ofFilename_eq_ok.mpr ⟨rfl, hparse⟩⟩

lemma mapM_ofFilename_eq_ok : names.mapM ofFilename = .ok named ↔
    (named.map fun m => m.filename) = names ∧ ∀ m ∈ named, WellNamed m := by
  rw [mapM_eq_ok]
  simp only [ofFilename_eq_ok]
  constructor
  · intro h
    induction h with
    | nil => simp
    | cons hm _ ih => simpa [hm, ih.1] using ih.2
  · rintro ⟨rfl, hstated⟩
    rw [List.forall₂_map_left_iff]
    exact List.forall₂_same.mpr fun m hm => ⟨rfl, hstated m hm⟩

/-- A file name determines its migration. -/
lemma WellNamed.eq (ha : WellNamed a) (hb : WellNamed b) (hname : a.filename = b.filename) :
    a = b := by
  have ha' := ofFilename_eq_ok.mpr ⟨hname, ha⟩
  rw [ofFilename_eq_ok.mpr ⟨rfl, hb⟩] at ha'
  exact (Except.ok.inj ha').symm

lemma filterMap_filenames (h : ∀ m ∈ ms, WellNamed m) :
    (ms.map fun m => m.filename).filterMap (fun name => (ofFilename name).toOption) = ms := by
  rw [List.filterMap_map]
  conv_rhs => rw [← List.filterMap_some (l := ms)]
  refine List.filterMap_congr fun m hm => ?_
  rw [Function.comp_apply, ofFilename_eq_ok.mpr ⟨rfl, h m hm⟩]
  rfl

lemma perm_of_filenames (h : ∀ m ∈ ms, WellNamed m) (h' : ∀ m ∈ named, WellNamed m)
    (hperm : (ms.map fun m => m.filename).Perm (named.map fun m => m.filename)) :
    ms.Perm named := by
  rw [← filterMap_filenames h, ← filterMap_filenames h']
  exact hperm.filterMap _

lemma nodup_filenames (hs : ms.Pairwise fun a b => a.version < b.version)
    (hstated : ∀ m ∈ ms, WellNamed m) : (ms.map fun m => m.filename).Nodup := by
  rw [List.Nodup, List.pairwise_map]
  refine hs.imp_of_mem fun {a b} ha hb hab heq => ?_
  obtain rfl := (hstated a ha).eq (hstated b hb) heq
  exact UInt64.lt_irrefl _ hab

/-- Sorting leaves no choice: the order is strict among migrations of different names. -/
lemma eq_mergeSort (hs : ms.Pairwise fun a b => orderLE a b = true) (hperm : ms.Perm named)
    (hstated : ∀ m ∈ ms, WellNamed m) : ms = named.mergeSort orderLE := by
  have hsorted := hperm.trans (List.mergeSort_perm named orderLE).symm
  refine hsorted.eq_of_pairwise (fun a b ha hb hab hba => ?_) hs (sorted_orderLE named)
  exact (hstated a ha).eq (hstated b (hsorted.mem_iff.mpr hb)) (orderLE_antisymm hab hba)

lemma Discovered.accepted (h : Discovered names ms) : ∀ name ∈ names, Accepted name := by
  intro name hname
  obtain ⟨m, hm, rfl⟩ := List.mem_map.mp (h.filenames.mem_iff.mpr hname)
  exact ⟨_, h.stated m hm⟩

lemma Discovered.of_perm {names' : List String} (h : Discovered names ms)
    (hperm : names.Perm names') : Discovered names' ms :=
  ⟨h.ascending, h.filenames.trans hperm, h.distinct, h.stated⟩

end Names

section Listings

variable {fs fs' : FileSystem} {dir : Path} {entries : List DirEntry} {ms named : List Migration}

variable (entries) in
lemma mapM_kept : ((entries.filter isKept).mapM fun entry => ofFilename entry.name) =
    (keptNames entries).mapM ofFilename := by
  unfold keptNames
  rw [List.mapM_map]
  rfl

lemma exists_named : (∃ named, (keptNames entries).mapM ofFilename = .ok named) ↔
    ∀ name ∈ keptNames entries, Accepted name := by
  rw [exists_mapM_eq_ok]
  exact forall₂_congr fun _ _ => exists_ofFilename

lemma ofEntries_of_refused {e : FilenameError}
    (h : (keptNames entries).mapM ofFilename = .error e) :
    ofEntries entries = .error (.invalidFilename e) := by
  unfold ofEntries
  rw [mapM_kept, h]
  rfl

lemma ofEntries_of_named (h : (keptNames entries).mapM ofFilename = .ok named) :
    ofEntries entries =
      match sharedVersion? (named.mergeSort orderLE) with
      | some (a, b) => .error (.duplicateVersion a.version a.filename b.filename)
      | none => .ok (named.mergeSort orderLE) := by
  unfold ofEntries
  rw [mapM_kept, h]
  simp only [mapError_ok, bind, Except.bind]
  cases sharedVersion? (named.mergeSort orderLE) <;> rfl

lemma mergeSort_of_named (h : (keptNames entries).mapM ofFilename = .ok named) :
    ((named.mergeSort orderLE).map fun m => m.filename).Perm (keptNames entries) ∧
      ∀ m ∈ named.mergeSort orderLE, WellNamed m := by
  obtain ⟨hnames, hstated⟩ := mapM_ofFilename_eq_ok.mp h
  refine ⟨?_, fun m hm => hstated m (List.mem_mergeSort.mp hm)⟩
  rw [← hnames]
  exact (List.mergeSort_perm named orderLE).map _

lemma ofEntries_eq_ok : ofEntries entries = .ok ms ↔ Discovered (keptNames entries) ms := by
  constructor
  · intro h
    cases hnamed : (keptNames entries).mapM ofFilename with
    | error e =>
      rw [ofEntries_of_refused hnamed] at h
      cases h
    | ok named =>
      obtain ⟨hnames, hstated⟩ := mergeSort_of_named hnamed
      rw [ofEntries_of_named hnamed] at h
      split at h
      · cases h
      · rename_i hnone
        obtain rfl := Except.ok.inj h
        have hascending := pairwise_version_lt (sorted_orderLE named) hnone
        exact ⟨hascending, hnames, nodup_filenames hascending hstated, hstated⟩
  · intro h
    obtain ⟨named, hnamed⟩ := exists_named.mpr h.accepted
    obtain ⟨hnames, hstated⟩ := mapM_ofFilename_eq_ok.mp hnamed
    have hperm : ms.Perm named := perm_of_filenames h.stated hstated (hnames ▸ h.filenames)
    have hsorted := h.ascending.imp orderLE_of_lt
    rw [ofEntries_of_named hnamed, ← eq_mergeSort hsorted hperm h.stated,
      (sharedVersion?_eq_none hsorted).mpr (nodup_of_ascending h.ascending)]

lemma discover_of_listed (hdir : dir.isEmpty = false) (hlist : fs.listDir dir = .ok entries) :
    discover fs dir = ofEntries entries := by
  unfold discover
  rw [if_neg (by simp [hdir]), hlist]
  rfl

lemma discover_of_unlisted {cause : IoError} (hdir : dir.isEmpty = false)
    (hlist : fs.listDir dir = .error cause) :
    discover fs dir = .error (.directoryRead dir cause) := by
  unfold discover
  rw [if_neg (by simp [hdir]), hlist]
  rfl

lemma isEmpty_of_discover (h : discover fs dir = .ok ms) : dir.isEmpty = false := by
  unfold discover at h
  split at h
  · simp [throw, throwThe, MonadExceptOf.throw, bind, Except.bind] at h
  · rename_i hdir
    simpa using hdir

lemma discover_eq_ok : discover fs dir = .ok ms ↔ dir.isEmpty = false ∧
    ∃ entries, fs.listDir dir = .ok entries ∧ Discovered (keptNames entries) ms := by
  constructor
  · intro h
    have hdir := isEmpty_of_discover h
    refine ⟨hdir, ?_⟩
    cases hlist : fs.listDir dir with
    | error cause =>
      rw [discover_of_unlisted hdir hlist] at h
      cases h
    | ok entries =>
      rw [discover_of_listed hdir hlist] at h
      exact ⟨entries, rfl, ofEntries_eq_ok.mp h⟩
  · rintro ⟨hdir, entries, hlist, h⟩
    rw [discover_of_listed hdir hlist]
    exact ofEntries_eq_ok.mpr h

/-- Discovery of a listing that is in order already. -/
lemma discover_of_sorted (entries : List DirEntry) (hdir : dir.isEmpty = false)
    (hentries : fs.listDir dir = .ok entries)
    (hnamed : (entries.filter isKept).mapM (fun entry => ofFilename entry.name) = .ok ms)
    (hsorted : ms.Pairwise fun a b => orderLE a b = true) (hdistinct : sharedVersion? ms = none) :
    discover fs dir = .ok ms := by
  rw [mapM_kept] at hnamed
  rw [discover_of_listed hdir hentries, ofEntries_of_named hnamed,
    List.mergeSort_of_pairwise hsorted, hdistinct]

/-- The order in which a directory is listed has no part in what is discovered. -/
theorem discover_of_perm (h : discover fs dir = .ok ms)
    (hlist : ∀ entries, fs.listDir dir = .ok entries →
      ∃ entries', fs'.listDir dir = .ok entries' ∧ entries'.Perm entries) :
    discover fs' dir = .ok ms := by
  obtain ⟨hdir, entries, hentries, hms⟩ := discover_eq_ok.mp h
  obtain ⟨entries', hentries', hperm⟩ := hlist entries hentries
  have hkept : (keptNames entries).Perm (keptNames entries') := ((hperm.filter _).map _).symm
  exact discover_eq_ok.mpr ⟨hdir, entries', hentries', hms.of_perm hkept⟩

end Listings

section Discovered

variable {fs : FileSystem} {dir : Path} {ms : List Migration} {a b : Migration}

theorem discover_ascending (h : discover fs dir = .ok ms) :
    ms.Pairwise fun a b => a.version < b.version := by
  obtain ⟨-, entries, -, hms⟩ := discover_eq_ok.mp h
  exact hms.ascending

lemma eq_of_filename (h : discover fs dir = .ok ms) (ha : a ∈ ms) (hb : b ∈ ms)
    (hname : a.filename = b.filename) : a = b := by
  obtain ⟨-, entries, -, hms⟩ := discover_eq_ok.mp h
  exact (hms.stated a ha).eq (hms.stated b hb) hname

theorem discover_filenames_nodup (h : discover fs dir = .ok ms) :
    (ms.map fun m => m.filename).Nodup := by
  obtain ⟨-, entries, -, hms⟩ := discover_eq_ok.mp h
  exact hms.distinct

lemma filter_filenames_nodup (h : discover fs dir = .ok ms) (p : Migration → Bool) :
    ((ms.filter p).map fun m => m.filename).Nodup :=
  (discover_filenames_nodup h).sublist (List.filter_sublist.map _)

end Discovered

lemma filter_isWithin_none (ms : List Migration) : ms.filter (Engine.isWithin none) = ms :=
  List.filter_eq_self.mpr fun _ _ => rfl

/-- Within ascending versions the migrations within a bound are a beginning. -/
lemma takeWhile_isWithin {ms : List Migration} (bound : Option UInt64)
    (hms : ms.Pairwise fun a b => a.version < b.version) :
    ms.takeWhile (Engine.isWithin bound) = ms.filter (Engine.isWithin bound) := by
  induction ms with
  | nil => rfl
  | cons m ms ih =>
    obtain ⟨hm, hms⟩ := List.pairwise_cons.mp hms
    by_cases hw : Engine.isWithin bound m = true
    · rw [List.takeWhile_cons_of_pos hw, List.filter_cons_of_pos hw, ih hms]
    · rw [List.takeWhile_cons_of_neg hw, List.filter_cons_of_neg hw, eq_comm,
        List.filter_eq_nil_iff]
      intro m' hm' hw'
      cases bound with
      | none => exact hw rfl
      | some target =>
        simp only [Engine.isWithin, decide_eq_true_eq] at hw hw'
        exact hw (UInt64.le_of_lt (UInt64.lt_of_lt_of_le (hm m' hm') hw'))

end SqlMigrations.Proofs
