import Mathlib.Data.List.Induction
import Mathlib.Data.List.Nodup
import SqlMigrations.FileSystem.Memory
import SqlMigrations.Proofs.Lookups
import SqlMigrations.Proofs.Results

/-!
# Files in memory

What a file system in memory holds after additions. Its keys are always in path order, which is a
linear order of components, so none of them stands there twice. The files of a directory are the
keys that extend it by one name.
-/

namespace SqlMigrations.Proofs

open SqlMigrations.Path (Component)

/-- The kind of a component, in the order of paths. -/
def rank : Component → Nat
  | .root => 0
  | .current => 1
  | .parent => 2
  | .normal _ => 3

def nameIn : Component → String
  | .normal name => name
  | _ => ""

lemma compare_components : (compare : Component → Component → Ordering) =
    compareLex (compareOn rank) (compareOn nameIn) := by
  funext a b
  cases a with
  | normal name =>
    cases b with
    | normal name' =>
      change (compare name name').then .eq = (compare 3 3).then (compare name name')
      simp
    | root | current | parent => rfl
  | root | current | parent => cases b <;> rfl

instance : Std.TransOrd Component := by
  unfold Std.TransOrd
  rw [compare_components]
  infer_instance

instance : Std.LawfulEqOrd Component where
  compare_self := Std.ReflCmp.compare_self
  eq_of_compare {a b} h := by
    rw [compare_components, compareLex, Ordering.then_eq_eq] at h
    have hrank : rank a = rank b := Std.LawfulEqOrd.eq_of_compare h.1
    have hname : nameIn a = nameIn b := Std.LawfulEqOrd.eq_of_compare h.2
    cases a <;> cases b <;> simp_all [rank, nameIn]

/-- Keys in path order, each once. -/
def InOrder (keys : List (List Component)) : Prop := keys.Pairwise fun a b => compare a b = .lt

section Keys

variable {key k : List Component} {keys : List (List Component)}

lemma InOrder.nodup (h : InOrder keys) : keys.Nodup := by
  refine h.imp fun {a b} hlt heq => ?_
  have hself : compare a b = .eq := heq ▸ Std.ReflCmp.compare_self
  rw [hself] at hlt
  cases hlt

lemma lt_of_componentsLE (hle : Path.componentsLE key k = true) (hne : key ≠ k) :
    compare key k = .lt := by
  unfold Path.componentsLE at hle
  cases hcmp : compare key k with
  | lt => rfl
  | eq => exact absurd (Std.LawfulEqOrd.eq_of_compare hcmp) hne
  | gt =>
    rw [hcmp] at hle
    cases hle

lemma lt_of_not_componentsLE (hle : ¬ Path.componentsLE key k = true) : compare k key = .lt := by
  have hswap : compare k key = (compare key k).swap := Std.OrientedCmp.eq_swap
  rw [hswap]
  unfold Path.componentsLE at hle
  cases hcmp : compare key k with
  | gt => rfl
  | lt | eq =>
    rw [hcmp] at hle
    exact absurd rfl hle

lemma mem_insertDir : k ∈ MemoryFileSystem.insertDir key keys ↔ k = key ∨ k ∈ keys := by
  induction keys with
  | nil => simp [MemoryFileSystem.insertDir]
  | cons k' keys ih =>
    rw [MemoryFileSystem.insertDir]
    by_cases heq : key = k'
    · simp [heq]
    · rw [if_neg heq]
      by_cases hle : Path.componentsLE key k' = true
      · rw [if_pos hle, List.mem_cons]
      · rw [if_neg hle, List.mem_cons, List.mem_cons, ih]
        tauto

lemma InOrder.insertDir (h : InOrder keys) : InOrder (MemoryFileSystem.insertDir key keys) := by
  induction keys with
  | nil => exact List.pairwise_singleton _ _
  | cons k keys ih =>
    rw [MemoryFileSystem.insertDir]
    have hk : ∀ k' ∈ keys, compare k k' = .lt := fun k' => List.rel_of_pairwise_cons h
    by_cases heq : key = k
    · rw [if_pos heq, heq]
      exact h
    · rw [if_neg heq]
      by_cases hle : Path.componentsLE key k = true
      · have hlt : compare key k = .lt := lt_of_componentsLE hle heq
        rw [if_pos hle]
        refine List.pairwise_cons.mpr ⟨fun k' hk' => ?_, h⟩
        rcases List.mem_cons.mp hk' with rfl | hk'
        · exact hlt
        · exact Std.TransCmp.lt_trans hlt (hk k' hk')
      · rw [if_neg hle]
        refine List.pairwise_cons.mpr ⟨fun k' hk' => ?_, ih (List.Pairwise.of_cons h)⟩
        rcases mem_insertDir.mp hk' with rfl | hk'
        · exact lt_of_not_componentsLE hle
        · exact hk k' hk'

lemma keys_insertFile {content : ByteArray} {files : List (List Component × ByteArray)} :
    (MemoryFileSystem.insertFile key content files).map Prod.fst =
      MemoryFileSystem.insertDir key (files.map Prod.fst) := by
  induction files with
  | nil => rfl
  | cons file files ih =>
    obtain ⟨k, v⟩ := file
    rw [MemoryFileSystem.insertFile, List.map_cons, MemoryFileSystem.insertDir]
    by_cases heq : key = k
    · rw [if_pos heq, if_pos heq]
      rfl
    · rw [if_neg heq, if_neg heq]
      by_cases hle : Path.componentsLE key k = true
      · rw [if_pos hle, if_pos hle]
        rfl
      · rw [if_neg hle, if_neg hle, List.map_cons, ih]

lemma lookup_insertFile {content : ByteArray} {files : List (List Component × ByteArray)} :
    (MemoryFileSystem.insertFile key content files).lookup k =
      if k = key then some content else files.lookup k := by
  induction files with
  | nil => exact lookup_cons_ite
  | cons file files ih =>
    obtain ⟨k', v⟩ := file
    rw [MemoryFileSystem.insertFile, @lookup_cons_ite _ _ _ _ _ k k']
    by_cases heq : key = k'
    · rw [if_pos heq, lookup_cons_ite, heq]
      split <;> rfl
    · rw [if_neg heq]
      by_cases hle : Path.componentsLE key k' = true
      · rw [if_pos hle, lookup_cons_ite, lookup_cons_ite]
      · rw [if_neg hle, lookup_cons_ite, ih]
        by_cases hk : k = k'
        · have hne : k ≠ key := fun h => heq (h ▸ hk)
          rw [if_pos hk, if_neg hne, if_pos hk]
        · rw [if_neg hk, if_neg hk]

end Keys

/-- The entries that keys make in a directory. -/
def entriesBelow (dir : List Component) (isFile : Bool) (keys : List (List Component)) :
    List DirEntry :=
  keys.filterMap fun key => (MemoryFileSystem.nameBelow? dir key).map (⟨·, isFile⟩)

section Listings

variable {dir key : List Component} {keys : List (List Component)} {name : String} {isFile : Bool}
  {fs : MemoryFileSystem} {path : Path}

lemma nameBelow?_eq_some :
    MemoryFileSystem.nameBelow? dir key = some name ↔ key = dir ++ [.normal name] := by
  unfold MemoryFileSystem.nameBelow? Path.parentOf? Path.nameOf?
  rcases List.eq_nil_or_concat key with rfl | ⟨above, last, rfl⟩
  · simp
  · cases last <;> simp

lemma mem_entriesBelow {e : DirEntry} : e ∈ entriesBelow dir isFile keys ↔
    e.isFile = isFile ∧ dir ++ [.normal e.name] ∈ keys := by
  obtain ⟨name, kind⟩ := e
  unfold entriesBelow
  rw [List.mem_filterMap]
  constructor
  · rintro ⟨key, hkey, he⟩
    obtain ⟨name', hname', heq⟩ := Option.map_eq_some_iff.mp he
    obtain ⟨rfl, rfl⟩ := DirEntry.mk.inj heq
    obtain rfl := nameBelow?_eq_some.mp hname'
    exact ⟨rfl, hkey⟩
  · rintro ⟨rfl, hkey⟩
    refine ⟨_, hkey, ?_⟩
    rw [nameBelow?_eq_some.mpr rfl]
    rfl

lemma entriesBelow_nodup (h : keys.Nodup) : (entriesBelow dir isFile keys).Nodup := by
  refine h.filterMap fun key key' e he he' => ?_
  obtain ⟨name, hname, rfl⟩ := Option.map_eq_some_iff.mp he
  obtain ⟨name', hname', heq⟩ := Option.map_eq_some_iff.mp he'
  rw [nameBelow?_eq_some.mp hname, nameBelow?_eq_some.mp hname', (DirEntry.mk.inj heq).1]

lemma listDir_of_mem (h : path.components ∈ fs.dirs) : fs.listDir path =
    .ok (entriesBelow path.components true (fs.files.map Prod.fst) ++
      entriesBelow path.components false fs.dirs) := by
  have hcontains : fs.dirs.contains path.components = true := List.contains_iff_mem.mpr h
  unfold MemoryFileSystem.listDir entriesBelow
  rw [if_pos hcontains, List.filterMap_map]
  rfl

end Listings

/-- A file with its content, or a directory without, and the path under which it is added. -/
structure Addition where
  path : Path
  content : Option ByteArray

/-- The directory that an addition makes known: itself, or the one that a file stands in. -/
def Addition.knownDir? (a : Addition) : Option (List Component) :=
  match a.content with
  | some _ => Path.parentOf? a.path.components
  | none => some a.path.components

/-- What a file system in memory holds after additions. -/
def inMemory (additions : List Addition) : MemoryFileSystem :=
  additions.foldl (fun fs a =>
    match a.content with
    | some bytes => fs.addFile a.path bytes
    | none => fs.addDir a.path) .empty

/-- The last content that is added under a key. -/
def lastContent? (additions : List Addition) (key : List Component) : Option ByteArray :=
  (additions.filterMap fun a => if a.path.components = key then a.content else none).getLast?

section Additions

variable {additions : List Addition} {key : List Component}

lemma inMemory_concat {a : Addition} : inMemory (additions ++ [a]) =
    match a.content with
    | some bytes => (inMemory additions).addFile a.path bytes
    | none => (inMemory additions).addDir a.path := by
  simp [inMemory]

lemma lookup_inMemory : (inMemory additions).files.lookup key = lastContent? additions key := by
  induction additions using List.reverseRecOn with
  | nil => rfl
  | append_singleton additions a ih =>
    rw [inMemory_concat]
    unfold lastContent?
    rw [List.filterMap_append]
    cases hcontent : a.content with
    | none => simpa [hcontent, MemoryFileSystem.addDir, lastContent?] using ih
    | some bytes =>
      simp only [MemoryFileSystem.addFile, lookup_insertFile]
      by_cases hkey : key = a.path.components
      · simp [hkey, hcontent]
      · rw [if_neg hkey, ih]
        simp [Ne.symm hkey, lastContent?]

lemma keys_inMemory_concat {a : Addition} : (inMemory (additions ++ [a])).files.map Prod.fst =
    if a.content.isSome then
      MemoryFileSystem.insertDir a.path.components ((inMemory additions).files.map Prod.fst)
    else (inMemory additions).files.map Prod.fst := by
  rw [inMemory_concat]
  cases a.content with
  | none => rfl
  | some bytes => exact keys_insertFile

lemma dirs_inMemory_concat {a : Addition} : (inMemory (additions ++ [a])).dirs =
    match a.knownDir? with
    | some dir => MemoryFileSystem.insertDir dir (inMemory additions).dirs
    | none => (inMemory additions).dirs := by
  rw [inMemory_concat]
  unfold Addition.knownDir?
  cases a.content with
  | none => rfl
  | some bytes => rfl

theorem inOrder_keys_inMemory : InOrder ((inMemory additions).files.map Prod.fst) := by
  induction additions using List.reverseRecOn with
  | nil => exact List.Pairwise.nil
  | append_singleton additions a ih =>
    rw [keys_inMemory_concat]
    split
    · exact ih.insertDir
    · exact ih

theorem inOrder_dirs_inMemory : InOrder (inMemory additions).dirs := by
  induction additions using List.reverseRecOn with
  | nil => exact List.Pairwise.nil
  | append_singleton additions a ih =>
    rw [dirs_inMemory_concat]
    split
    · exact ih.insertDir
    · exact ih

theorem mem_keys_inMemory : key ∈ (inMemory additions).files.map Prod.fst ↔
    ∃ a ∈ additions, a.content.isSome = true ∧ a.path.components = key := by
  induction additions using List.reverseRecOn with
  | nil => simp [inMemory, MemoryFileSystem.empty]
  | append_singleton additions a ih =>
    rw [keys_inMemory_concat]
    by_cases hfile : a.content.isSome = true
    · rw [if_pos hfile, mem_insertDir, ih, or_comm, eq_comm (a := key)]
      simp [or_and_right, exists_or, hfile]
    · rw [if_neg hfile, ih]
      simp [or_and_right, exists_or, hfile]

theorem mem_dirs_inMemory : key ∈ (inMemory additions).dirs ↔
    ∃ a ∈ additions, a.knownDir? = some key := by
  induction additions using List.reverseRecOn with
  | nil => simp [inMemory, MemoryFileSystem.empty]
  | append_singleton additions a ih =>
    rw [dirs_inMemory_concat]
    cases hdir : a.knownDir? with
    | none => simp [ih, or_and_right, exists_or, hdir]
    | some dir =>
      simp only [mem_insertDir, ih]
      rw [or_comm, eq_comm (a := key)]
      simp [or_and_right, exists_or, hdir]

end Additions

end SqlMigrations.Proofs
