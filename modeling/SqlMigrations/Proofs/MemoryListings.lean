import SqlMigrations.Proofs.JoinedNames
import SqlMigrations.Proofs.MemoryFiles

/-!
# Listings in memory

A file system in memory after additions of any spelling. A directory is known by an addition of its
own or of a file right below it. What it then lists are the names that were added right below it,
files before directories and each in the order of bytes, and every file that it lists is read with
what was added last.
-/

namespace SqlMigrations.Proofs

open SqlMigrations.Path (Component)

/-- The content of the last file that is added under some components. -/
def LastAdded (additions : List Addition) (key : List Component) (bytes : ByteArray) : Prop :=
  ∃ before a after, additions = before ++ a :: after ∧ a.path.components = key ∧
    a.content = some bytes ∧ ∀ b ∈ after, b.path.components = key → b.content = none

/-- The names of the keys right below a directory. -/
def namesBelow (dir : List Component) (keys : List (List Component)) : List String :=
  keys.filterMap (MemoryFileSystem.nameBelow? dir)

section Names

variable {dir key : List Component} {keys : List (List Component)} {name : String}

lemma entriesBelow_eq (isFile : Bool) :
    entriesBelow dir isFile keys = (namesBelow dir keys).map (⟨·, isFile⟩) :=
  List.map_filterMap.symm

lemma mem_namesBelow : name ∈ namesBelow dir keys ↔ dir ++ [.normal name] ∈ keys := by
  unfold namesBelow
  rw [List.mem_filterMap]
  constructor
  · rintro ⟨key, hkey, hname⟩
    exact nameBelow?_eq_some.mp hname ▸ hkey
  · exact fun hkey => ⟨_, hkey, nameBelow?_eq_some.mpr rfl⟩

lemma parent_and_name : Path.parentOf? key = some dir ∧ Path.nameOf? key = some name ↔
    key = dir ++ [.normal name] := by
  rw [← nameBelow?_eq_some]
  unfold MemoryFileSystem.nameBelow?
  by_cases hparent : Path.parentOf? key = some dir
  · simp [hparent]
  · simp [hparent]

lemma compare_append (dir key key' : List Component) :
    compare (dir ++ key) (dir ++ key') = compare key key' := by
  induction dir with
  | nil => rfl
  | cons c dir ih =>
    have hcons : compare (c :: (dir ++ key)) (c :: (dir ++ key')) =
        (compare c c).then (compare (dir ++ key) (dir ++ key')) := List.compareLex_cons_cons
    have hsame : compare c c = .eq := Std.ReflCmp.compare_self
    rw [List.cons_append, List.cons_append, hcons, hsame, ih]
    rfl

lemma utf8_lt_of_compare {name' : String}
    (h : compare (dir ++ [.normal name]) (dir ++ [.normal name']) = .lt) :
    utf8 name < utf8 name' := by
  have hnames : compare name name' = .lt := by
    have hlast : compare [Component.normal name] [.normal name'] =
        (compare (Component.normal name) (.normal name')).then .eq := List.compareLex_cons_cons
    have hnormal : compare (Component.normal name) (.normal name') =
        (compare name name').then .eq := rfl
    rw [compare_append, hlast, hnormal] at h
    simpa using h
  exact utf8_lt_utf8.mpr (compare_lt_iff_lt.mp hnames)

/-- Keys in path order have the names below a directory in the order of their bytes. -/
lemma InOrder.namesBelow (h : InOrder keys) (dir : List Component) :
    (namesBelow dir keys).Pairwise fun a b => utf8 a < utf8 b := by
  refine List.Pairwise.filterMap _ (fun key key' hlt name hname name' hname' => ?_) h
  obtain rfl := nameBelow?_eq_some.mp hname
  obtain rfl := nameBelow?_eq_some.mp hname'
  exact utf8_lt_of_compare hlt

end Names

section Additions

variable {additions : List Addition} {key : List Component} {bytes : ByteArray} {path : Path}

lemma lastContent?_eq_some : lastContent? additions key = some bytes ↔
    LastAdded additions key bytes := by
  have hcontent : ∀ a : Addition, (if a.path.components = key then a.content else none) = none ↔
      (a.path.components = key → a.content = none) := by simp
  unfold lastContent? LastAdded
  rw [List.getLast?_filterMap, List.findSome?_eq_some_iff]
  simp only [hcontent, Option.ite_none_right_eq_some]
  constructor
  · rintro ⟨after, a, before, hsplit, ha, hafter⟩
    refine ⟨before.reverse, a, after.reverse, ?_, ha.1, ha.2, by simpa using hafter⟩
    rw [← List.reverse_reverse additions, hsplit]
    simp
  · rintro ⟨before, a, after, rfl, hkey, hbytes, hafter⟩
    exact ⟨after.reverse, a, before.reverse, by simp, ⟨hkey, hbytes⟩, by simpa using hafter⟩

lemma readBytes_inMemory : (inMemory additions).readBytes path = .ok bytes ↔
    LastAdded additions path.components bytes := by
  rw [← lastContent?_eq_some, ← lookup_inMemory]
  unfold MemoryFileSystem.readBytes
  cases (inMemory additions).files.lookup path.components <;> simp

lemma listDir_inMemory : (∃ listing, (inMemory additions).listDir path = .ok listing) ↔
    ∃ a ∈ additions, a.knownDir? = some path.components := by
  rw [← mem_dirs_inMemory]
  constructor
  · rintro ⟨listing, hlist⟩
    by_contra hunknown
    have hcontains : ¬ (inMemory additions).dirs.contains path.components = true :=
      fun hcontains => hunknown (List.contains_iff_mem.mp hcontains)
    unfold MemoryFileSystem.listDir at hlist
    rw [if_neg hcontains] at hlist
    cases hlist
  · exact fun hmem => ⟨_, listDir_of_mem hmem⟩

lemma exists_lastAdded : (∃ bytes, LastAdded additions key bytes) ↔
    ∃ a ∈ additions, a.content.isSome = true ∧ a.path.components = key := by
  have hnodup : ((inMemory additions).files.map Prod.fst).Nodup := inOrder_keys_inMemory.nodup
  rw [← mem_keys_inMemory]
  simp only [← lastContent?_eq_some, ← lookup_inMemory, lookup_eq_some_iff_mem hnodup, List.mem_map]
  constructor
  · rintro ⟨bytes, hmem⟩
    exact ⟨(key, bytes), hmem, rfl⟩
  · rintro ⟨⟨key, bytes⟩, hmem, rfl⟩
    exact ⟨bytes, hmem⟩

/-- A file that is listed in a directory is found under its name joined to the directory. -/
lemma readBytes_join {name : String}
    (h : path.components ++ [.normal name] ∈ (inMemory additions).files.map Prod.fst) :
    ∃ bytes, (inMemory additions).readBytes (path.join ⟨name⟩) = .ok bytes ∧
      LastAdded additions (path.components ++ [.normal name]) bytes := by
  obtain ⟨a, ha, hfile, hpath⟩ := mem_keys_inMemory.mp h
  have hlast : Path.Component.normal name ∈ a.path.components := by simp [hpath]
  have hname : IsComponent name := isComponent_of_mem hlast
  obtain ⟨bytes, hlast⟩ := exists_lastAdded.mpr ⟨a, ha, hfile, hpath⟩
  refine ⟨bytes, readBytes_inMemory.mpr ?_, hlast⟩
  rw [components_join hname]
  exact hlast

end Additions

/-- What a file system in memory answers after any additions. It lists the directories that were
added or have a file right below them. A listing has the names of the files that were added right
below the directory, then those of the known directories right below it, each once and in order, and
reading what it lists as a file gives what was added last under that path. Two spellings of a path
are not told apart. -/
theorem memory_coherent (additions : List Addition) (dir : Path) :
    let fs := inMemory additions
    ((∃ listing, fs.listDir dir = .ok listing) ↔
      ∃ a ∈ additions, a.knownDir? = some dir.components) ∧
    (∀ listing, fs.listDir dir = .ok listing → ∃ files dirs : List String,
      listing = files.map (⟨·, true⟩) ++ dirs.map (⟨·, false⟩) ∧
      (files.Pairwise fun a b => utf8 a < utf8 b) ∧ (dirs.Pairwise fun a b => utf8 a < utf8 b) ∧
      (∀ name, name ∈ files ↔ ∃ a ∈ additions, a.content.isSome = true ∧
        Path.parentOf? a.path.components = some dir.components ∧ a.path.fileName? = some name) ∧
      (∀ name, name ∈ dirs ↔ ∃ a ∈ additions, ∃ known, a.knownDir? = some known ∧
        Path.parentOf? known = some dir.components ∧ Path.nameOf? known = some name) ∧
      ∀ name ∈ files, ∃ bytes, fs.readBytes (dir.join ⟨name⟩) = .ok bytes ∧
        LastAdded additions (dir.components ++ [.normal name]) bytes) ∧
    (∀ path, (∃ bytes, fs.readBytes path = .ok bytes) ↔
      ∃ a ∈ additions, a.content.isSome = true ∧ a.path.components = path.components) ∧
    ∀ path path', Respelled path path' → path'.components = path.components := by
  intro fs
  refine ⟨listDir_inMemory, fun listing hlist => ?_, fun path => ?_, fun _ _ =>
    components_respelled⟩
  · have hknown : dir.components ∈ fs.dirs :=
      mem_dirs_inMemory.mpr (listDir_inMemory.mp ⟨listing, hlist⟩)
    refine ⟨namesBelow dir.components (fs.files.map Prod.fst), namesBelow dir.components fs.dirs,
      ?_, inOrder_keys_inMemory.namesBelow _, inOrder_dirs_inMemory.namesBelow _, fun name => ?_,
      fun name => ?_, fun name hname => readBytes_join (mem_namesBelow.mp hname)⟩
    · rw [listDir_of_mem hknown, entriesBelow_eq, entriesBelow_eq] at hlist
      exact (Except.ok.inj hlist).symm
    · rw [mem_namesBelow, mem_keys_inMemory]
      refine exists_congr fun a => and_congr_right fun _ => and_congr_right fun _ => ?_
      exact parent_and_name.symm
    · rw [mem_namesBelow, mem_dirs_inMemory]
      refine exists_congr fun a => and_congr_right fun _ => ?_
      simp [parent_and_name]
  · simp only [fs, readBytes_inMemory, exists_lastAdded]

/-- A bare name stands in the directory without a name, and of two spellings of one path the later
addition counts. -/
example :
    let fs := inMemory [⟨⟨"b.sql"⟩, some "1".toUTF8⟩, ⟨⟨"m//a.sql/"⟩, some "2".toUTF8⟩,
      ⟨⟨"m/./a.sql"⟩, some "3".toUTF8⟩, ⟨⟨"m/.."⟩, none⟩]
    fs.listDir ⟨""⟩ = .ok [⟨"b.sql", true⟩, ⟨"m", false⟩] ∧
    fs.listDir ⟨"m/"⟩ = .ok [⟨"a.sql", true⟩] ∧
    fs.readBytes (Path.join ⟨"m/."⟩ ⟨"a.sql"⟩) = .ok "3".toUTF8 := by
  decide +kernel

end SqlMigrations.Proofs
