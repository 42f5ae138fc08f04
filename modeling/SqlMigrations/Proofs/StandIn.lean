import SqlMigrations.Proofs.DiskTrees
import SqlMigrations.Proofs.UnreadFiles

/-!
# Memory in place of a disk

One tree on a disk and in memory. Both list the same entries for a directory, in different orders,
and read the same bytes, and the engine does not tell them apart: orders of listings only decide
which of several refused names it reports.
-/

namespace SqlMigrations.Proofs

variable {σ : Type}

/-- Two results are the same, or two different names are refused and each result reports one. -/
def SameButRefused {α : Type} (names : List String) (r r' : Except EngineError α) : Prop :=
  r' = r ∨ ∃ name ∈ names, ∃ name' ∈ names, name ≠ name' ∧ ∃ e e',
    Migration.parseFilename name = .error e ∧ Migration.parseFilename name' = .error e' ∧
      r = .error (.discovery (.invalidFilename e)) ∧ r' = .error (.discovery (.invalidFilename e'))

/-- Two programs make the same calls, leave the same state and come to the same result, up to which
of several refused names is reported. -/
structure SameOutcome {α : Type} (names : List String)
    (o o' : Observation σ (Except EngineError α)) : Prop where
  log_eq : o'.log = o.log
  state_eq : o'.state = o.state
  value : SameButRefused names o.value o'.value

lemma SameOutcome.of_eq {α : Type} {names : List String}
    {o o' : Observation σ (Except EngineError α)} (h : o' = o) : SameOutcome names o o' :=
  ⟨by rw [h], by rw [h], .inl (by rw [h])⟩

lemma list_eq_undiscovered {table : TableName} {fs : FileSystem} {dir : Path}
    {e : DiscoveryError} (hdir : dir.isEmpty = false)
    (hdisc : Migration.discover fs dir = .error e) :
    ExceptT.run (Engine.list table fs dir) = undiscovered table e := by
  unfold Engine.list Engine.discover
  rw [if_neg (by simp [hdir]), hdisc]
  refine congrArg (Program.call (createCall table)) (funext fun reply => ?_)
  cases reply <;> rfl

section Listings

variable {fs fs' : FileSystem} {dir : Path} {listing listing' : List DirEntry}
  {db : Database σ} {table : TableName} {s : σ}

/-- Two names that are refused, one in each order of the listing. -/
lemma exists_refused (hdir : dir.isEmpty = false) (hlist : fs.listDir dir = .ok listing)
    (hrefused : ¬ ∀ name ∈ keptNames listing, Accepted name) :
    ∃ name ∈ keptNames listing, ∃ e, Migration.parseFilename name = .error e ∧
      Migration.discover fs dir = .error (.invalidFilename e) := by
  have hname : ∃ name ∈ keptNames listing, ¬ Accepted name := by simpa using hrefused
  obtain ⟨e, he⟩ := ofEntries_of_not_accepted hname
  obtain ⟨before, name, after, hsplit, -, hparse⟩ := ofEntries_eq_invalidFilename.mp he
  refine ⟨name, ?_, e, hparse, ?_⟩
  · rw [hsplit]
    exact List.mem_append_right _ List.mem_cons_self
  · rw [discover_of_listed hdir hlist, he]

lemma sameOutcome_undiscovered (α : Type) {names : List String} {name name' : String}
    {e e' : FilenameError} (hname : name ∈ names) (hname' : name' ∈ names)
    (hparse : Migration.parseFilename name = .error e)
    (hparse' : Migration.parseFilename name' = .error e') :
    SameOutcome (α := α) names (observe db (undiscovered table (.invalidFilename e)) s)
      (observe db (undiscovered table (.invalidFilename e')) s) := by
  rw [undiscovered, undiscovered, observe_call, observe_call]
  obtain ⟨reply, t⟩ := (db (createCall table)).run s
  cases reply with
  | error cause => exact .of_eq rfl
  | ok u =>
    refine ⟨rfl, rfl, ?_⟩
    by_cases hne : name = name'
    · rw [hne, hparse'] at hparse
      exact .inl (by rw [Except.error.inj hparse])
    · exact .inr ⟨name, hname, name', hname', hne, e, e', hparse, hparse', rfl, rfl⟩

/-- A migration's file is among the regular files of the listing. -/
lemma readBytes_of_discovered (hlist : fs.listDir dir = .ok listing) (hread : ∀ e ∈ listing,
      e.isFile = true → fs'.readBytes (dir.join ⟨e.name⟩) = fs.readBytes (dir.join ⟨e.name⟩))
    {ms : List Migration} (hms : Migration.discover fs dir = .ok ms) {m : Migration} (hm : m ∈ ms) :
    fs'.readBytes (dir.join ⟨m.filename⟩) = fs.readBytes (dir.join ⟨m.filename⟩) := by
  obtain ⟨-, entries, hentries, hdisc⟩ := discover_eq_ok.mp hms
  obtain rfl : listing = entries := Except.ok.inj (hlist.symm.trans hentries)
  have hmem : m.filename ∈ keptNames listing :=
    hdisc.filenames.mem_iff.mp (List.mem_map_of_mem hm)
  obtain ⟨e, he, hname⟩ := List.mem_map.mp hmem
  obtain ⟨hlisted, hkept⟩ := List.mem_filter.mp he
  rw [← hname]
  exact hread e hlisted (Bool.and_eq_true_iff.mp hkept).1

/-- The order of a listing does not change what the engine does, if the same bytes are read. -/
theorem sameOutcome_of_perm (hdir : dir.isEmpty = false) (hlist : fs.listDir dir = .ok listing)
    (hlist' : fs'.listDir dir = .ok listing') (hperm : listing.Perm listing')
    (hread : ∀ e ∈ listing, e.isFile = true →
      fs'.readBytes (dir.join ⟨e.name⟩) = fs.readBytes (dir.join ⟨e.name⟩)) :
    (∀ bound, SameOutcome (keptNames listing)
      (observe db (ExceptT.run (Engine.run table fs dir bound)) s)
      (observe db (ExceptT.run (Engine.run table fs' dir bound)) s)) ∧
    SameOutcome (keptNames listing) (observe db (ExceptT.run (Engine.list table fs dir)) s)
      (observe db (ExceptT.run (Engine.list table fs' dir)) s) := by
  have hkept : (keptNames listing).Perm (keptNames listing') := (hperm.filter _).map _
  by_cases haccepted : ∀ name ∈ keptNames listing, Accepted name
  · have halike : ListedAlike dir fs fs' := ⟨listing, listing', hlist, hlist', hkept, haccepted⟩
    constructor
    · intro bound
      have hsame : Unaffected table db (fun _ => True) (Engine.run table fs dir bound)
          (Engine.run table fs' dir bound) := by
        apply Unaffected.run halike
        intro ms hms m hm _ _
        exact readBytes_of_discovered hlist hread hms hm
      exact .of_eq (hsame s fun _ _ => trivial)
    · refine .of_eq ?_
      unfold Engine.list Engine.discover
      rw [halike.discover]
  · obtain ⟨name, hname, e, hparse, hdisc⟩ := exists_refused hdir hlist haccepted
    have hrefused' : ¬ ∀ name ∈ keptNames listing', Accepted name := fun h =>
      haccepted fun n hn => h n (hkept.mem_iff.mp hn)
    obtain ⟨name', hname', e', hparse', hdisc'⟩ := exists_refused hdir hlist' hrefused'
    have hmem' := hkept.mem_iff.mpr hname'
    constructor
    · intro bound
      by_cases hbound : bound = some 0
      · rw [hbound, observe_run_zero hdir, observe_run_zero hdir]
        exact .of_eq rfl
      · rw [run_eq_undiscovered hdir hbound hdisc, run_eq_undiscovered hdir hbound hdisc']
        exact sameOutcome_undiscovered RunSummary hname hmem' hparse hparse'
    · rw [list_eq_undiscovered hdir hdisc, list_eq_undiscovered hdir hdisc']
      exact sameOutcome_undiscovered StatusReport hname hmem' hparse hparse'

end Listings

/-! ### A tree in memory -/

section Memory

variable {entries : List TreeEntry} {n : TreeEntry}

/-- The tree in memory, its entries added one after the other. -/
def treeInMemory (entries : List TreeEntry) : MemoryFileSystem :=
  inMemory (entries.map TreeEntry.addition)

lemma IsTree.components_eq (htree : IsTree entries) (hn : n ∈ entries) :
    n.path.components = n.names.map .normal :=
  components_pathOf (htree.named n hn).1 (htree.named n hn).2

lemma map_normal_inj {names names' : List String} :
    names.map Path.Component.normal = names'.map Path.Component.normal ↔ names = names' :=
  (List.map_injective_iff.mpr fun _ _ h => Path.Component.normal.inj h).eq_iff

lemma IsTree.components_eq_concat (htree : IsTree entries) {child : TreeEntry} (hn : n ∈ entries)
    (hchild : child ∈ entries) {name : String} :
    child.path.components = n.path.components ++ [.normal name] ↔
      child.names = n.names ++ [name] := by
  rw [htree.components_eq hchild, htree.components_eq hn, ← map_normal_inj, List.map_append]
  rfl

theorem readBytes_treeInMemory (htree : IsTree entries) (hn : n ∈ entries) {bytes : ByteArray}
    (hbytes : n.content = some bytes) :
    (treeInMemory entries).readBytes n.path = .ok bytes := by
  have hlookup : (treeInMemory entries).files.lookup n.path.components = some bytes := by
    unfold treeInMemory
    rw [lookup_inMemory]
    cases hlast : lastContent? (entries.map TreeEntry.addition) n.path.components with
    | none =>
      have hnil := List.getLast?_eq_none_iff.mp hlast
      have hempty := List.filterMap_eq_nil_iff.mp hnil n.addition (List.mem_map_of_mem hn)
      rw [if_pos (show n.addition.path.components = n.path.components from rfl)] at hempty
      exact hempty.symm.trans hbytes
    | some content =>
      -- No other entry is added under this path.
      obtain ⟨a, ha, hcontent⟩ := List.mem_filterMap.mp (List.mem_of_getLast? hlast)
      obtain ⟨n', hn', rfl⟩ := List.mem_map.mp ha
      obtain ⟨hpath, hstored⟩ := Option.ite_none_right_eq_some.mp hcontent
      have hnames : n'.names = n.names := by
        rw [← map_normal_inj, ← htree.components_eq hn', ← htree.components_eq hn]
        exact hpath
      obtain rfl := htree.eq_of_names hn' hn hnames
      exact hstored.symm.trans hbytes
  unfold MemoryFileSystem.readBytes
  rw [hlookup]

lemma mem_keys_treeInMemory (htree : IsTree entries) (hn : n ∈ entries) {name : String} :
    n.path.components ++ [.normal name] ∈ (treeInMemory entries).files.map Prod.fst ↔
      ∃ child ∈ entries, child.names = n.names ++ [name] ∧ child.content.isSome = true := by
  unfold treeInMemory
  rw [mem_keys_inMemory]
  constructor
  · rintro ⟨a, ha, hfile, hpath⟩
    obtain ⟨child, hchild, rfl⟩ := List.mem_map.mp ha
    exact ⟨child, hchild, (htree.components_eq_concat hn hchild).mp hpath, hfile⟩
  · rintro ⟨child, hchild, hnames, hfile⟩
    exact ⟨child.addition, List.mem_map_of_mem hchild, hfile,
      (htree.components_eq_concat hn hchild).mpr hnames⟩

lemma parentOf?_eq_some {names : List String} {key : List Path.Component}
    (h : Path.parentOf? (names.map .normal) = some key) :
    ∃ above name, names = above ++ [name] ∧ key = above.map .normal := by
  rcases List.eq_nil_or_concat names with rfl | ⟨above, name, rfl⟩
  · cases h
  · refine ⟨above, name, List.concat_eq_append, ?_⟩
    simpa [Path.parentOf?, eq_comm] using h

lemma mem_dirs_treeInMemory (htree : IsTree entries) (hn : n ∈ entries) {name : String} :
    n.path.components ++ [.normal name] ∈ (treeInMemory entries).dirs ↔
      ∃ child ∈ entries, child.names = n.names ++ [name] ∧ child.content.isSome = false := by
  unfold treeInMemory
  rw [mem_dirs_inMemory]
  constructor
  · rintro ⟨a, ha, hdir⟩
    obtain ⟨child, hchild, rfl⟩ := List.mem_map.mp ha
    unfold Addition.knownDir? at hdir
    cases hcontent : child.content with
    | none =>
      simp only [TreeEntry.addition, hcontent, Option.some.injEq] at hdir
      exact ⟨child, hchild, (htree.components_eq_concat hn hchild).mp hdir, by simp [hcontent]⟩
    | some bytes =>
      -- The directory in which a file stands is an entry of its own.
      simp only [TreeEntry.addition, hcontent, htree.components_eq hchild] at hdir
      obtain ⟨above, file, hnames, hkey⟩ := parentOf?_eq_some hdir
      have habove : above = n.names ++ [name] := by
        rw [← map_normal_inj, ← hkey, htree.components_eq hn, List.map_append]
        rfl
      have hparent := htree.parent hchild hnames (by simp [habove])
      exact ⟨_, hparent, habove, rfl⟩
  · rintro ⟨child, hchild, hnames, hdir⟩
    refine ⟨child.addition, List.mem_map_of_mem hchild, ?_⟩
    have hnone : child.content = none := by simpa using hdir
    simp only [Addition.knownDir?, TreeEntry.addition, hnone, Option.some.injEq]
    exact (htree.components_eq_concat hn hchild).mpr hnames

theorem listDir_treeInMemory (htree : IsTree entries) (hn : n ∈ entries)
    (hdir : n.content = none) : ∃ listing, (treeInMemory entries).listDir n.path = .ok listing ∧
      IsListing entries n.names listing := by
  have hknown : n.path.components ∈ (treeInMemory entries).dirs := by
    refine mem_dirs_inMemory.mpr ⟨n.addition, List.mem_map_of_mem hn, ?_⟩
    simp [Addition.knownDir?, TreeEntry.addition, hdir]
  refine ⟨_, listDir_of_mem hknown, ?_, fun e => ?_⟩
  · refine (entriesBelow_nodup inOrder_keys_inMemory.nodup).append
      (entriesBelow_nodup inOrder_dirs_inMemory.nodup) fun e he he' => ?_
    have hfile := (mem_entriesBelow.mp he).1
    have hother := (mem_entriesBelow.mp he').1
    rw [hfile] at hother
    cases hother
  · rw [List.mem_append, mem_entriesBelow, mem_entriesBelow, mem_keys_treeInMemory htree hn,
      mem_dirs_treeInMemory htree hn]
    cases e.isFile <;> simp

end Memory

/-- A tree can be made on a disk, and in memory it then answers as the disk does: every file has the
same bytes, every directory the same entries, and the engine does the same from every state of every
database. -/
theorem memory_stands_in {entries entries' : List TreeEntry} (htree : IsTree entries)
    (hperm : entries.Perm entries') : ∃ d, onDisk entries = .ok d ∧
      (∀ n ∈ entries, ∀ bytes, n.content = some bytes → d.readBytes n.path = .ok bytes ∧
        (treeInMemory entries').readBytes n.path = .ok bytes) ∧
      ∀ n ∈ entries, n.content = none → ∃ listing listing', d.listDir n.path = .ok listing ∧
        (treeInMemory entries').listDir n.path = .ok listing' ∧
        IsListing entries n.names listing ∧ listing.Perm listing' ∧
        ∀ (σ : Type) (db : Database σ) (table : TableName) (s : σ),
          (∀ bound, SameOutcome (keptNames listing)
            (observe db (ExceptT.run (Engine.run table d.fileSystem n.path bound)) s)
            (observe db (ExceptT.run
              (Engine.run table (treeInMemory entries').fileSystem n.path bound)) s)) ∧
          SameOutcome (keptNames listing)
            (observe db (ExceptT.run (Engine.list table d.fileSystem n.path)) s)
            (observe db (ExceptT.run
              (Engine.list table (treeInMemory entries').fileSystem n.path)) s) := by
  have htree' := htree.perm hperm
  obtain ⟨d, hd, hgrown⟩ := exists_onDisk htree
  have hbytes : ∀ n ∈ entries, ∀ bytes, n.content = some bytes → d.readBytes n.path = .ok bytes ∧
      (treeInMemory entries').readBytes n.path = .ok bytes := fun n hn bytes hcontent =>
    ⟨hgrown.readBytes htree hn hcontent,
      readBytes_treeInMemory htree' (hperm.mem_iff.mp hn) hcontent⟩
  refine ⟨d, hd, hbytes, fun n hn hdir => ?_⟩
  obtain ⟨hne, hnames⟩ := htree.named n hn
  obtain ⟨listing, hlist, hlisting⟩ := hgrown.listDir htree hn hdir
  obtain ⟨listing', hlist', hlisting'⟩ :=
    listDir_treeInMemory htree' (hperm.mem_iff.mp hn) hdir
  have hsame : listing.Perm listing' := by
    refine hlisting.perm ⟨hlisting'.nodup, fun e => ?_⟩
    simp only [hlisting'.mem_iff, hperm.mem_iff]
  refine ⟨listing, listing', hlist, hlist', hlisting, hsame, fun σ db table s => ?_⟩
  refine sameOutcome_of_perm (isEmpty_pathOf hne hnames) hlist hlist' hsame fun e he hfile => ?_
  obtain ⟨child, hchild, hnamed, hcontent⟩ := (hlisting.mem_iff e).mp he
  obtain ⟨bytes, hsome⟩ := Option.isSome_iff_exists.mp (hcontent.trans hfile)
  have hname : IsName e.name := (htree.named child hchild).2 e.name (by simp [hnamed])
  have hpath : n.path.join ⟨e.name⟩ = child.path := by
    rw [TreeEntry.path, join_pathOf hne hnames hname, ← hnamed]
    rfl
  obtain ⟨hondisk, hinmemory⟩ := hbytes child hchild bytes hsome
  change (treeInMemory entries').readBytes (n.path.join ⟨e.name⟩) =
    d.readBytes (n.path.join ⟨e.name⟩)
  rw [hpath, hinmemory, hondisk]

/-- A tree out of order: a file before its directory, a directory named like a migration, and two
names that are refused. -/
def mixedTree : List TreeEntry :=
  [⟨["m", "1_a.sql"], some "SELECT 1".toUTF8⟩, ⟨["m", "x.sql"], some "SELECT 2".toUTF8⟩,
    ⟨["m", "2_old.sql"], none⟩, ⟨["m"], none⟩, ⟨["m", "y.sql"], some .empty⟩,
    ⟨["m", "2_old.sql", "README"], some .empty⟩]

theorem memory_stands_in_mixed : IsTree mixedTree ∧ mixedTree.Perm mixedTree.reverse ∧
    ∃ d listing listing', onDisk mixedTree = .ok d ∧ d.listDir ⟨"m"⟩ = .ok listing ∧
      (treeInMemory mixedTree.reverse).listDir ⟨"m"⟩ = .ok listing' ∧ listing.Perm listing' ∧
      SameOutcome (keptNames listing)
        (observe liveDatabase (ExceptT.run (Engine.run .default d.fileSystem ⟨"m"⟩ none)) lateStore)
        (observe liveDatabase (ExceptT.run (Engine.run .default
          (treeInMemory mixedTree.reverse).fileSystem ⟨"m"⟩ none)) lateStore) := by
  have htree : IsTree mixedTree := by decide +kernel
  have hperm : mixedTree.Perm mixedTree.reverse := mixedTree.reverse_perm.symm
  have hmem : ⟨["m"], none⟩ ∈ mixedTree := by decide +kernel
  have hpath : (⟨["m"], none⟩ : TreeEntry).path = ⟨"m"⟩ := by decide +kernel
  obtain ⟨d, hd, -, hdirs⟩ := memory_stands_in htree hperm
  obtain ⟨listing, listing', hlist, hlist', -, hsame, hengine⟩ := hdirs _ hmem rfl
  rw [hpath] at hlist hlist' hengine
  exact ⟨htree, hperm, d, listing, listing', hd, hlist, hlist', hsame,
    (hengine LiveStore liveDatabase .default lateStore).1 none⟩

end SqlMigrations.Proofs
