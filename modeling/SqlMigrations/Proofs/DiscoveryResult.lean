import Mathlib.Data.List.Count
import SqlMigrations.FileSystem.Memory
import SqlMigrations.FileSystem.Overlay
import SqlMigrations.Proofs.ByteOrder
import SqlMigrations.Proofs.DiscoveryOrder

/-!
# The result of discovery

Discovery succeeds if and only if every kept name is read and no version is stated twice. Of several
faults a name that is refused counts first, by the order of the listing; else the least version that
is shared, with the least of its names, which does not depend on that order.
-/

namespace SqlMigrations.Proofs

open Migration

/-- The version that a file name states, if it is read. -/
def versionOf? (name : String) : Option UInt64 := (parseFilename name).toOption.map Prod.fst

/-- The versions that file names state, each as often as it is stated. -/
def versionsOf (names : List String) : List UInt64 := names.filterMap versionOf?

/-- The file names among some that state a version. -/
def namesOf (names : List String) (version : UInt64) : List String :=
  names.filter fun name => versionOf? name = some version

/-- The error of the first name that is refused. -/
def FirstRefused (names : List String) (e : FilenameError) : Prop :=
  ∃ before name after, names = before ++ name :: after ∧ (∀ x ∈ before, Accepted x) ∧
    parseFilename name = .error e

/-- The least version that two names state, and the two least of its names in the order of their
bytes, where a name counts as often as it is listed. -/
structure LeastShared (names : List String) (version : UInt64) (first second : String) : Prop where
  shared : 2 ≤ (versionsOf names).count version
  least : ∀ other, 2 ≤ (versionsOf names).count other → version ≤ other
  smallest : ∃ rest, (first :: second :: rest).Perm (namesOf names version) ∧
    (first :: second :: rest).Pairwise fun a b => utf8 a ≤ utf8 b

section Names

variable {names : List String} {ms : List Migration}

lemma WellNamed.versionOf? {m : Migration} (h : WellNamed m) :
    versionOf? m.filename = some m.version := by
  unfold Proofs.versionOf?
  rw [h]
  rfl

lemma versionsOf_filenames (h : ∀ m ∈ ms, WellNamed m) :
    versionsOf (ms.map fun m => m.filename) = ms.map fun m => m.version := by
  unfold versionsOf
  rw [List.filterMap_map, ← List.filterMap_eq_map]
  exact List.filterMap_congr fun m hm => (h m hm).versionOf?

lemma namesOf_filenames (h : ∀ m ∈ ms, WellNamed m) (version : UInt64) :
    namesOf (ms.map fun m => m.filename) version =
      (ms.filter fun m => m.version = version).map fun m => m.filename := by
  unfold namesOf
  rw [List.filter_map]
  refine congrArg _ (List.filter_congr fun m hm => ?_)
  simp [(h m hm).versionOf?]

lemma count_versionsOf (hstated : ∀ m ∈ ms, WellNamed m)
    (hnames : (ms.map fun m => m.filename).Perm names) (version : UInt64) :
    (versionsOf names).count version = (ms.map fun m => m.version).count version := by
  rw [← versionsOf_filenames hstated]
  exact (hnames.symm.filterMap versionOf?).count_eq version

lemma Discovered.versions_nodup (h : Discovered names ms) : (versionsOf names).Nodup := by
  rw [List.nodup_iff_count_le_one]
  intro version
  rw [count_versionsOf h.stated h.filenames]
  exact List.nodup_iff_count_le_one.mp (nodup_of_ascending h.ascending) version

lemma LeastShared.not_nodup {version : UInt64} {first second : String}
    (h : LeastShared names version first second) : ¬ (versionsOf names).Nodup := by
  intro hnodup
  have hone := List.nodup_iff_count_le_one.mp hnodup version
  have htwo := h.shared
  omega

end Names

section Shared

variable {ms : List Migration} {a b : Migration}

lemma version_le_of_orderLE (h : orderLE a b = true) : a.version ≤ b.version := by
  rcases orderLE_iff.mp h with h | ⟨h, -⟩
  · exact UInt64.le_of_lt h
  · exact h ▸ UInt64.le_refl _

/-- Up to the first shared version the versions ascend, and none after it is smaller. -/
lemma around_sharedVersion? {before rest : List Migration}
    (hs : (before ++ a :: b :: rest).Pairwise fun a b => orderLE a b = true)
    (hnone : sharedVersion? (before ++ [a]) = none) :
    (before.map fun m => m.version).Nodup ∧ (∀ m ∈ before, m.version < a.version) ∧
      ∀ m ∈ a :: b :: rest, a.version ≤ m.version := by
  have hsub : (before ++ [a]).Sublist (before ++ a :: b :: rest) :=
    (List.Sublist.refl before).append (List.singleton_sublist.mpr List.mem_cons_self)
  obtain ⟨hbefore, -, hlt⟩ := List.pairwise_append.mp (pairwise_version_lt (hs.sublist hsub) hnone)
  obtain ⟨-, hafter, -⟩ := List.pairwise_append.mp hs
  refine ⟨nodup_of_ascending hbefore, fun m hm => hlt m hm a List.mem_cons_self, fun m hm => ?_⟩
  rcases List.mem_cons.mp hm with rfl | hm
  · exact UInt64.le_refl _
  · exact version_le_of_orderLE (List.rel_of_pairwise_cons hafter hm)

/-- Of one version the migrations are in the order of the bytes of their file names. -/
lemma pairwise_utf8 (hs : ms.Pairwise fun a b => orderLE a b = true) (version : UInt64) :
    ((ms.filter fun m => m.version = version).map fun m => m.filename).Pairwise
      fun a b => utf8 a ≤ utf8 b := by
  rw [List.pairwise_map]
  refine (hs.filter _).imp_of_mem fun {x y} hx hy hxy => ?_
  have hxv : x.version = version := of_decide_eq_true (List.mem_filter.mp hx).2
  have hyv : y.version = version := of_decide_eq_true (List.mem_filter.mp hy).2
  rcases orderLE_iff.mp hxy with hlt | ⟨-, hle⟩
  · exact absurd (hxv.trans hyv.symm) (UInt64.ne_of_lt hlt)
  · exact utf8_le_utf8.mpr hle

lemma filter_shared {before rest : List Migration} (hlt : ∀ m ∈ before, m.version < a.version)
    (hversion : a.version = b.version) :
    ((before ++ a :: b :: rest).filter fun m => m.version = a.version) =
      a :: b :: rest.filter fun m => m.version = a.version := by
  rw [List.filter_append, List.filter_eq_nil_iff.mpr, List.nil_append,
    List.filter_cons_of_pos (by simp), List.filter_cons_of_pos (by simp [hversion])]
  intro m hm
  simpa using UInt64.ne_of_lt (hlt m hm)

lemma leastShared_of_sorted {names : List String}
    (hs : ms.Pairwise fun a b => orderLE a b = true) (hstated : ∀ m ∈ ms, WellNamed m)
    (hnames : (ms.map fun m => m.filename).Perm names) (h : sharedVersion? ms = some (a, b)) :
    LeastShared names a.version a.filename b.filename := by
  obtain ⟨before, rest, rfl, hversion, hnone⟩ := sharedVersion?_eq_some h
  obtain ⟨hnodup, hlt, hge⟩ := around_sharedVersion? hs hnone
  have hcount := count_versionsOf hstated hnames
  simp only [List.map_append, List.count_append] at hcount
  have hnamed : (a.filename :: b.filename ::
      (rest.filter fun m => m.version = a.version).map fun m => m.filename) =
        ((before ++ a :: b :: rest).filter fun m => m.version = a.version).map
          fun m => m.filename := by
    rw [filter_shared hlt hversion]
    rfl
  refine ⟨?_, fun other hother => ?_, _, ?_, hnamed ▸ pairwise_utf8 hs a.version⟩
  · rw [hcount, List.map_cons, List.map_cons, hversion, List.count_cons_self, List.count_cons_self]
    omega
  · by_contra hle
    have hsmall : other < a.version := UInt64.not_le.mp hle
    have hone : (before.map fun m => m.version).count other ≤ 1 :=
      List.nodup_iff_count_le_one.mp hnodup other
    have hzero : ((a :: b :: rest).map fun m => m.version).count other = 0 := by
      rw [List.count_eq_zero, List.mem_map]
      rintro ⟨m, hm, rfl⟩
      exact UInt64.lt_irrefl _ (UInt64.lt_of_lt_of_le hsmall (hge m hm))
    rw [hcount] at hother
    omega
  · rw [hnamed, ← namesOf_filenames hstated]
    exact hnames.filter _

end Shared

section Listings

variable {entries entries' : List DirEntry}

lemma ofFilename_eq_error {name : String} {e : FilenameError} :
    ofFilename name = .error e ↔ parseFilename name = .error e := map_eq_error

lemma ofEntries_eq_invalidFilename {e : FilenameError} :
    ofEntries entries = .error (.invalidFilename e) ↔ FirstRefused (keptNames entries) e := by
  have hfirst : (keptNames entries).mapM ofFilename = .error e ↔
      FirstRefused (keptNames entries) e := by
    rw [mapM_eq_error]
    simp only [exists_ofFilename, ofFilename_eq_error, FirstRefused]
  rw [← hfirst]
  refine ⟨fun h => ?_, ofEntries_of_refused⟩
  cases hnamed : (keptNames entries).mapM ofFilename with
  | error e' =>
    rw [ofEntries_of_refused hnamed] at h
    cases h
    rfl
  | ok named =>
    rw [ofEntries_of_named hnamed] at h
    split at h <;> cases h

lemma ofEntries_of_not_accepted (h : ∃ name ∈ keptNames entries, ¬ Accepted name) :
    ∃ e, ofEntries entries = .error (.invalidFilename e) := by
  cases hnamed : (keptNames entries).mapM ofFilename with
  | error e => exact ⟨e, ofEntries_of_refused hnamed⟩
  | ok named =>
    obtain ⟨name, hname, hrefused⟩ := h
    exact absurd (exists_named.mp ⟨named, hnamed⟩ name hname) hrefused

/-- What discovery makes of a listing whose kept names are all read. -/
lemma ofEntries_of_accepted (h : ∀ name ∈ keptNames entries, Accepted name) :
    (∃ ms, ofEntries entries = .ok ms) ∨ ∃ version first second,
      ofEntries entries = .error (.duplicateVersion version first second) ∧
        LeastShared (keptNames entries) version first second := by
  obtain ⟨named, hnamed⟩ := exists_named.mpr h
  obtain ⟨hnames, hstated⟩ := mergeSort_of_named hnamed
  rw [ofEntries_of_named hnamed]
  cases hshared : sharedVersion? (named.mergeSort orderLE) with
  | none => exact .inl ⟨_, rfl⟩
  | some pair =>
    have hleast := leastShared_of_sorted (sorted_orderLE named) hstated hnames hshared
    exact .inr ⟨_, _, _, rfl, hleast⟩

lemma exists_ofEntries_eq_ok : (∃ ms, ofEntries entries = .ok ms) ↔
    (∀ name ∈ keptNames entries, Accepted name) ∧ (versionsOf (keptNames entries)).Nodup := by
  constructor
  · rintro ⟨ms, hms⟩
    have hdiscovered := ofEntries_eq_ok.mp hms
    exact ⟨hdiscovered.accepted, hdiscovered.versions_nodup⟩
  · rintro ⟨haccepted, hnodup⟩
    rcases ofEntries_of_accepted haccepted with hok | ⟨version, first, second, -, hleast⟩
    · exact hok
    · exact absurd hnodup hleast.not_nodup

/-- The order of the kept names has no part in what they make, if all of them are read. -/
lemma ofEntries_of_perm (hperm : (keptNames entries).Perm (keptNames entries'))
    (h : ∀ name ∈ keptNames entries, Accepted name) : ofEntries entries' = ofEntries entries := by
  obtain ⟨named, hnamed⟩ := exists_named.mpr h
  obtain ⟨named', hnamed'⟩ := exists_named.mpr fun name hname => h name (hperm.mem_iff.mpr hname)
  obtain ⟨hnames, hstated⟩ := mapM_ofFilename_eq_ok.mp hnamed
  obtain ⟨hnames', hstated'⟩ := mergeSort_of_named hnamed'
  have hsame : named'.mergeSort orderLE = named.mergeSort orderLE := by
    refine eq_mergeSort (sorted_orderLE named') (perm_of_filenames hstated' hstated ?_) hstated'
    rw [hnames]
    exact hnames'.trans hperm.symm
  rw [ofEntries_of_named hnamed', ofEntries_of_named hnamed, hsame]

end Listings

/-- A file system in which only one directory is listed. -/
def onlyListing (dir : Path) (entries : List DirEntry) : FileSystem :=
  (Overlay.setListing {} dir (.ok entries)).cover MemoryFileSystem.empty.fileSystem

section Discovery

variable {fs fs' : FileSystem} {dir : Path} {entries entries' : List DirEntry}

/-- When discovery succeeds, what it then returns, and which fault it reports otherwise: the entries
that are not kept have no part in it. -/
theorem discover_exact (hdir : dir.isEmpty = false) :
    (∀ cause, fs.listDir dir = .error cause →
      discover fs dir = .error (.directoryRead dir cause)) ∧
    ∀ entries, fs.listDir dir = .ok entries →
      ((∃ ms, discover fs dir = .ok ms) ↔
        (∀ name ∈ keptNames entries, Accepted name) ∧ (versionsOf (keptNames entries)).Nodup) ∧
      (∀ ms, discover fs dir = .ok ms ↔ Discovered (keptNames entries) ms) ∧
      ((∃ name ∈ keptNames entries, ¬ Accepted name) →
        ∃ e, discover fs dir = .error (.invalidFilename e)) ∧
      (∀ e, discover fs dir = .error (.invalidFilename e) ↔ FirstRefused (keptNames entries) e) ∧
      ∀ fs' entries', fs'.listDir dir = .ok entries' →
        entries'.filter isKept = entries.filter isKept → discover fs' dir = discover fs dir := by
  refine ⟨fun cause => discover_of_unlisted hdir, fun entries hlist => ?_⟩
  rw [discover_of_listed hdir hlist]
  refine ⟨exists_ofEntries_eq_ok, fun ms => ofEntries_eq_ok, ofEntries_of_not_accepted,
    fun e => ofEntries_eq_invalidFilename, fun fs' entries' hlist' hkept => ?_⟩
  rw [discover_of_listed hdir hlist', ofEntries, ofEntries, hkept]

/-- Entries out of order, some of which are not kept. -/
def mixedEntries : List DirEntry :=
  [⟨"10_b.sql", true⟩, ⟨"README.md", true⟩, ⟨"9_old.sql", false⟩, ⟨".sql", true⟩, ⟨"09_.sql", true⟩]

theorem discover_exact_mixed :
    Path.isEmpty ⟨"m"⟩ = false ∧ discover (onlyListing ⟨"m"⟩ mixedEntries) ⟨"m"⟩ =
      .ok [⟨9, "", "09_.sql"⟩, ⟨10, "b", "10_b.sql"⟩] := by
  have hdir : Path.isEmpty ⟨"m"⟩ = false := by decide
  have hlist : (onlyListing ⟨"m"⟩ mixedEntries).listDir ⟨"m"⟩ = .ok mixedEntries := by
    decide +kernel
  obtain ⟨-, hresult, -⟩ := (discover_exact hdir).2 mixedEntries hlist
  exact ⟨hdir, (hresult _).mpr (by decide +kernel)⟩

/-- The order of a listing has no part in what discovery makes of it, the names that are shared
included. Only which of several refused names is reported depends on it. -/
theorem discover_order_free (hdir : dir.isEmpty = false) (hlist : fs.listDir dir = .ok entries)
    (hlist' : fs'.listDir dir = .ok entries') (hperm : entries.Perm entries') :
    ((∃ ms, discover fs dir = .ok ms ∧ discover fs' dir = .ok ms) ∨
      (∃ version first second,
        discover fs dir = .error (.duplicateVersion version first second) ∧
          discover fs' dir = .error (.duplicateVersion version first second)) ∨
      ∃ e e', discover fs dir = .error (.invalidFilename e) ∧
        discover fs' dir = .error (.invalidFilename e')) ∧
    ((∀ name ∈ keptNames entries, Accepted name) → ¬ (versionsOf (keptNames entries)).Nodup →
      ∃ version first second,
        discover fs dir = .error (.duplicateVersion version first second) ∧
          LeastShared (keptNames entries) version first second) := by
  have hkept : (keptNames entries).Perm (keptNames entries') := (hperm.filter _).map _
  rw [discover_of_listed hdir hlist, discover_of_listed hdir hlist']
  constructor
  · by_cases haccepted : ∀ name ∈ keptNames entries, Accepted name
    · rw [ofEntries_of_perm hkept haccepted]
      rcases ofEntries_of_accepted haccepted with ⟨ms, hok⟩ | ⟨version, first, second, hdup, -⟩
      · exact .inl ⟨ms, hok, hok⟩
      · exact .inr (.inl ⟨version, first, second, hdup, hdup⟩)
    · have hrefused : ∃ name ∈ keptNames entries, ¬ Accepted name := by simpa using haccepted
      obtain ⟨name, hname, hnot⟩ := hrefused
      obtain ⟨e, he⟩ := ofEntries_of_not_accepted ⟨name, hname, hnot⟩
      obtain ⟨e', he'⟩ := ofEntries_of_not_accepted ⟨name, hkept.mem_iff.mp hname, hnot⟩
      exact .inr (.inr ⟨e, e', he, he'⟩)
  · intro haccepted hshared
    rcases ofEntries_of_accepted haccepted with hok | hdup
    · exact absurd (exists_ofEntries_eq_ok.mp hok).2 hshared
    · exact hdup

/-- Entries that share two versions, one of them three times. -/
def sharingEntries : List DirEntry :=
  [⟨"3_z.sql", true⟩, ⟨"02_b.sql", true⟩, ⟨"2_a.sql", true⟩, ⟨"3_y.sql", true⟩, ⟨"002_c.sql", true⟩,
    ⟨"1_x.sql", true⟩]

theorem discover_order_free_sharing :
    sharingEntries.Perm sharingEntries.reverse ∧ ∃ version first second,
      discover (onlyListing ⟨"m"⟩ sharingEntries) ⟨"m"⟩ =
        .error (.duplicateVersion version first second) ∧
      discover (onlyListing ⟨"m"⟩ sharingEntries.reverse) ⟨"m"⟩ =
        .error (.duplicateVersion version first second) ∧
      LeastShared (keptNames sharingEntries) version first second := by
  have hperm : sharingEntries.Perm sharingEntries.reverse := sharingEntries.reverse_perm.symm
  have hdir : Path.isEmpty ⟨"m"⟩ = false := by decide
  have hlist : (onlyListing ⟨"m"⟩ sharingEntries).listDir ⟨"m"⟩ = .ok sharingEntries := by
    decide +kernel
  have hlist' : (onlyListing ⟨"m"⟩ sharingEntries.reverse).listDir ⟨"m"⟩ =
      .ok sharingEntries.reverse := by
    decide +kernel
  obtain ⟨hsame, hleast⟩ := discover_order_free hdir hlist hlist' hperm
  obtain ⟨version, first, second, hdup, hshared⟩ := hleast (by decide +kernel) (by decide +kernel)
  rw [hdup] at hsame
  rcases hsame with ⟨ms, hok, -⟩ | ⟨version', first', second', heq, hdup'⟩ | ⟨e, e', hrefused, -⟩
  · cases hok
  · cases heq
    exact ⟨hperm, version, first, second, hdup, hdup', hshared⟩
  · cases hrefused

end Discovery

end SqlMigrations.Proofs
