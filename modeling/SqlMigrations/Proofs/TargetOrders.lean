import Mathlib.Data.List.Sort
import Mathlib.Data.String.Basic
import SqlMigrations.Proofs.LoadedContext
import SqlMigrations.Proofs.Lookups

/-!
# Orders of targets

The targets of a configuration are a mapping from names to databases, and they may be gone through
in any order. What is looked up in them does not depend on it, and neither does the list of their
names in a message, which is sorted. The check of the paths stops at the first empty one: whether
there is an error does not depend on the order, but which target it names does.
-/

namespace SqlMigrations.Proofs

/-- A configuration with the same settings and targets, in whatever order these are gone through. -/
structure Reordered (c d : Config) : Prop where
  migrationsDir : d.migrationsDir = c.migrationsDir
  trackingTable : d.trackingTable = c.trackingTable
  database : d.database = c.database
  targets : c.targets.Perm d.targets

section Orders

variable {c d : Config} {target : Option String} {name : String}

lemma Reordered.targetNames (h : Reordered c d) : d.targetNames = c.targetNames := by
  have hnames : (d.targets.map (·.1)).Perm (c.targets.map (·.1)) := (h.targets.map _).symm
  unfold Config.targetNames
  have hsame := (List.mergeSort_perm (d.targets.map (·.1)) (· ≤ ·)).trans
    (hnames.trans (List.mergeSort_perm (c.targets.map (·.1)) (· ≤ ·)).symm)
  apply hsame.eq_of_pairwise _ (List.pairwise_mergeSort' (· ≤ ·) _)
    (List.pairwise_mergeSort' (· ≤ ·) _)
  intro a b _ _ hab hba
  exact le_antisymm hab hba

lemma Reordered.databaseFor (h : Reordered c d) (hdistinct : (c.targets.map Prod.fst).Nodup) :
    d.databaseFor target = c.databaseFor target := by
  cases target with
  | none => exact congrArg Except.ok h.database
  | some name =>
    unfold Config.databaseFor
    simp only [← lookup_perm h.targets hdistinct, h.targetNames]

end Orders

end SqlMigrations.Proofs
