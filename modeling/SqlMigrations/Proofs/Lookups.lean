import Mathlib.Data.List.Nodup
import Mathlib.Tactic.Lemma

/-!
# Lookups

Values looked up by key in a list of pairs. Where no key stands twice, what is found does not depend
on the order of the pairs.
-/

namespace SqlMigrations.Proofs

section Lookups

variable {α β : Type} [BEq α] [LawfulBEq α] [DecidableEq α]

lemma lookup_cons_ite {a a' : α} {b : β} {l : List (α × β)} :
    ((a', b) :: l).lookup a = if a = a' then some b else l.lookup a := by
  by_cases h : a = a'
  · simp [h]
  · rw [if_neg h, List.lookup_cons, beq_eq_false_iff_ne.mpr h]

lemma lookup_eq_some_iff_mem {a : α} {b : β} {l : List (α × β)} (h : (l.map Prod.fst).Nodup) :
    l.lookup a = some b ↔ (a, b) ∈ l := by
  induction l with
  | nil => simp
  | cons entry l ih =>
    obtain ⟨a', b'⟩ := entry
    obtain ⟨hnot, hrest⟩ := List.nodup_cons.mp h
    rw [lookup_cons_ite, List.mem_cons, Prod.mk.injEq]
    by_cases ha : a = a'
    · subst ha
      have habsent : (a, b) ∉ l := fun hmem => hnot (List.mem_map.mpr ⟨(a, b), hmem, rfl⟩)
      simp [habsent, eq_comm]
    · rw [if_neg ha, ih hrest]
      simp [ha]

lemma lookup_perm {a : α} {l l' : List (α × β)} (hperm : l.Perm l')
    (h : (l.map Prod.fst).Nodup) : l.lookup a = l'.lookup a := by
  have h' : (l'.map Prod.fst).Nodup := (hperm.map Prod.fst).nodup_iff.mp h
  ext b
  rw [lookup_eq_some_iff_mem h, lookup_eq_some_iff_mem h', hperm.mem_iff]

end Lookups

end SqlMigrations.Proofs
