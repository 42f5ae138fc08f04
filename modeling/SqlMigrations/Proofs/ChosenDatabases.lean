import SqlMigrations.Proofs.LoadedContext

/-!
# Chosen databases

The database that a loaded configuration gives for a target. Its checks look at the path of every
named target, so none of these is empty. They do not look at the default database: its path may be
empty, and it is given where no target is named.
-/

namespace SqlMigrations.Proofs

/-- A configuration that is read from a file or found for a project directory. -/
def Loaded (disk : Disk) (c : Config) : Prop :=
  (∃ path, Config.load disk path = .ok c) ∨ ∃ dir, Config.loadFromDir disk dir = .ok c

section Choice

variable {disk : Disk} {c : Config} {target : Option String} {path : Path}

lemma Loaded.validates (h : Loaded disk c) : c.validate = .ok () := by
  rcases h with ⟨_, h⟩ | ⟨_, h⟩
  · exact load_validates h
  · exact loadFromDir_validates h

lemma databaseFor_none : c.databaseFor none = .ok path ↔ path = c.database := by
  simp [Config.databaseFor, eq_comm]

lemma databaseFor_some {name : String} :
    c.databaseFor (some name) = .ok path ↔ c.targets.lookup name = some path := by
  unfold Config.databaseFor
  cases hname : c.targets.lookup name <;> simp [hname]

lemma mem_targets_of_lookup {name : String} (h : c.targets.lookup name = some path) :
    (name, path) ∈ c.targets := by
  obtain ⟨before, after, hsplit, -⟩ := List.lookup_eq_some_iff.mp h
  rw [hsplit]
  exact List.mem_append_right before List.mem_cons_self

lemma nonempty_of_named {name : String} (hload : Loaded disk c)
    (h : c.databaseFor (some name) = .ok path) : path.isEmpty = false :=
  (validate_eq_ok.mp hload.validates).2.2 (name, path)
    (mem_targets_of_lookup (databaseFor_some.mp h))

/-- A loaded configuration gives an empty path if and only if no target is named and the path of its
default database is empty. -/
theorem chosen_database_empty_iff (hload : Loaded disk c) (h : c.databaseFor target = .ok path) :
    path.isEmpty = true ↔ target = none ∧ c.database.isEmpty = true := by
  cases target with
  | none =>
    obtain rfl := databaseFor_none.mp h
    simp
  | some name => simp [nonempty_of_named hload h]

end Choice

/-- A tree whose configuration has an empty default path and one target. -/
def unnamedDisk : Disk :=
  Disk.empty.put (Disk.empty.cwd ++ ["tidemark.yml".toUTF8.data.toList])
    (.file "database:\n  path: ''\ntargets:\n  prod:\n    path: p.db\n".toUTF8)

lemma load_unnamedDisk : Config.load unnamedDisk ⟨"tidemark.yml"⟩ =
    .ok { database := ⟨""⟩, targets := [("prod", ⟨"p.db"⟩)] } :=
  eq_ok_of_toOption (by decide +kernel)

/-- The default path of the tree is empty, and that of its target is not. -/
theorem chosen_database_empty_iff_unnamed : ∃ c, Loaded unnamedDisk c ∧
    c.databaseFor none = .ok ⟨""⟩ ∧ c.databaseFor (some "prod") = .ok ⟨"p.db"⟩ ∧
    c.database.isEmpty = true ∧ (Path.mk "p.db").isEmpty = false := by
  have hload : Loaded unnamedDisk _ := .inl ⟨_, load_unnamedDisk⟩
  have hdefault := @chosen_database_empty_iff _ _ none ⟨""⟩ hload rfl
  have hnamed := @chosen_database_empty_iff _ _ (some "prod") ⟨"p.db"⟩ hload rfl
  refine ⟨_, hload, rfl, rfl, (hdefault.mp rfl).2, ?_⟩
  rw [← Bool.not_eq_true, hnamed]
  nofun

/-- Not every database that a loaded configuration gives has a path. -/
theorem chosen_database_may_be_empty : ¬ ∀ (disk : Disk) (c : Config) (target : Option String)
    (path : Path), Loaded disk c → c.databaseFor target = .ok path → path.isEmpty = false := by
  intro hall
  have hnonempty := hall unnamedDisk _ none ⟨""⟩ (.inl ⟨_, load_unnamedDisk⟩) rfl
  cases hnonempty

end SqlMigrations.Proofs
