import Mathlib.Tactic.Lemma
import SqlMigrations.Text.Pieces

/-!
# Cuts of text

What the cuts of a character list come to: each one is undone by putting the text together again.
-/

namespace SqlMigrations.Proofs

lemma pieces_append_separator {sep : Char} (front rest : List Char) :
    Text.pieces sep (front ++ sep :: rest) = Text.pieces sep front ++ Text.pieces sep rest := by
  induction front with
  | nil => simp [Text.pieces]
  | cons c front ih =>
    rw [List.cons_append, Text.pieces, Text.pieces, ih]
    by_cases hc : c = sep
    · rw [if_pos hc, if_pos hc]
      rfl
    · obtain ⟨piece, pieces, hpieces⟩ :=
        List.exists_cons_of_ne_nil (Text.pieces_ne_nil sep front)
      rw [if_neg hc, if_neg hc, hpieces]
      rfl

lemma pieces_eq_singleton {sep : Char} {cs : List Char} (h : sep ∉ cs) :
    Text.pieces sep cs = [cs] := by
  induction cs with
  | nil => rfl
  | cons c cs ih =>
    have hc : c ≠ sep := fun hc => h (hc ▸ List.mem_cons_self)
    rw [Text.pieces, if_neg hc, ih fun hs => h (List.mem_cons_of_mem c hs)]

lemma pieces_append {sep : Char} {cs : List Char} (rest : List Char) (h : sep ∉ cs) :
    Text.pieces sep (cs ++ sep :: rest) = cs :: Text.pieces sep rest := by
  rw [pieces_append_separator, pieces_eq_singleton h]
  rfl

lemma separator_notMem_of_mem_pieces {sep : Char} {cs piece : List Char}
    (h : piece ∈ Text.pieces sep cs) : sep ∉ piece := by
  induction cs generalizing piece with
  | nil =>
    obtain rfl := List.mem_singleton.mp h
    exact List.not_mem_nil
  | cons c cs ih =>
    obtain ⟨first, others, hpieces⟩ := List.exists_cons_of_ne_nil (Text.pieces_ne_nil sep cs)
    rw [hpieces] at ih
    rw [Text.pieces, hpieces] at h
    by_cases hc : c = sep
    · rw [if_pos hc] at h
      rcases List.mem_cons.mp h with rfl | h
      · exact List.not_mem_nil
      · exact ih h
    · rw [if_neg hc] at h
      rcases List.mem_cons.mp h with rfl | h
      · have hfirst : sep ∉ first := ih List.mem_cons_self
        simp [hfirst, Ne.symm hc]
      · exact ih (List.mem_cons_of_mem first h)

lemma splitFirst?_append {sep : Char} {cs : List Char} (rest : List Char) (h : sep ∉ cs) :
    Text.splitFirst? sep (cs ++ sep :: rest) = some (cs, rest) := by
  induction cs with
  | nil => simp [Text.splitFirst?]
  | cons c cs ih =>
    have hc : c ≠ sep := fun hc => h (hc ▸ List.mem_cons_self)
    rw [List.cons_append, Text.splitFirst?, if_neg hc, ih fun hs => h (List.mem_cons_of_mem c hs)]
    rfl

lemma splitFirst?_eq_some {sep : Char} {cs before after : List Char} :
    Text.splitFirst? sep cs = some (before, after) ↔
      cs = before ++ sep :: after ∧ sep ∉ before := by
  constructor
  · intro h
    induction cs generalizing before with
    | nil => cases h
    | cons c cs ih =>
      rw [Text.splitFirst?] at h
      by_cases hc : c = sep
      · rw [if_pos hc] at h
        obtain ⟨rfl, rfl⟩ := Prod.mk.inj (Option.some.inj h)
        simp [hc]
      · rw [if_neg hc, Option.map_eq_some_iff] at h
        obtain ⟨⟨before', after'⟩, hsplit, heq⟩ := h
        obtain ⟨rfl, rfl⟩ := Prod.mk.inj heq
        obtain ⟨rfl, hnot⟩ := ih hsplit
        exact ⟨rfl, by simp [Ne.symm hc, hnot]⟩
  · rintro ⟨rfl, hnot⟩
    exact splitFirst?_append after hnot

lemma splitFirst?_eq_none {sep : Char} {cs : List Char} :
    Text.splitFirst? sep cs = none ↔ sep ∉ cs := by
  induction cs with
  | nil => simp [Text.splitFirst?]
  | cons c cs ih =>
    rw [Text.splitFirst?]
    by_cases hc : c = sep
    · simp [hc]
    · simp [hc, Ne.symm hc, ih]

lemma splitLast?_eq_some {sep : Char} {cs before after : List Char} :
    Text.splitLast? sep cs = some (before, after) ↔ cs = before ++ sep :: after ∧ sep ∉ after := by
  unfold Text.splitLast?
  rw [Option.map_eq_some_iff]
  constructor
  · rintro ⟨⟨after', before'⟩, hsplit, heq⟩
    obtain ⟨hreverse, hnot⟩ := splitFirst?_eq_some.mp hsplit
    obtain ⟨rfl, rfl⟩ := Prod.mk.inj heq
    refine ⟨?_, by simpa using hnot⟩
    rw [← List.reverse_reverse cs, hreverse]
    simp
  · rintro ⟨rfl, hnot⟩
    have hsplit : Text.splitFirst? sep (before ++ sep :: after).reverse =
        some (after.reverse, before.reverse) := splitFirst?_eq_some.mpr (by simp [hnot])
    exact ⟨_, hsplit, by simp⟩

lemma dropEnding?_eq_some {ending cs rest : List Char} :
    Text.dropEnding? ending cs = some rest ↔ cs = rest ++ ending := by
  unfold Text.dropEnding?
  by_cases h : ending <:+ cs
  · obtain ⟨front, rfl⟩ := h
    simp
  · rw [if_neg (by simpa using h)]
    constructor
    · intro hnone
      cases hnone
    · rintro rfl
      exact absurd (List.suffix_append rest ending) h

lemma dropEnding?_eq_none {ending cs : List Char} :
    Text.dropEnding? ending cs = none ↔ ¬ ending <:+ cs := by
  simp [Text.dropEnding?]

lemma dropBeginning?_append (beginning rest : List Char) :
    Text.dropBeginning? beginning (beginning ++ rest) = some rest := by
  induction beginning with
  | nil => rfl
  | cons c cs ih => rw [List.cons_append, Text.dropBeginning?, if_pos rfl, ih]

lemma dropBeginning?_eq_some {beginning cs rest : List Char} :
    Text.dropBeginning? beginning cs = some rest ↔ cs = beginning ++ rest := by
  induction beginning generalizing cs with
  | nil => simp [Text.dropBeginning?]
  | cons b beginning ih =>
    cases cs with
    | nil => simp [Text.dropBeginning?]
    | cons c cs =>
      rw [Text.dropBeginning?]
      by_cases hbc : b = c
      · rw [if_pos hbc, ih, hbc, List.cons_append, List.cons_inj_right]
      · simp [hbc, Ne.symm hbc]

lemma contains_iff {fragment cs : List Char} :
    Text.contains fragment cs = true ↔ fragment <:+: cs := by
  induction cs with
  | nil => simp [Text.contains]
  | cons c cs ih => rw [Text.contains, Bool.or_eq_true, List.isPrefixOf_iff_prefix, ih,
      List.infix_cons_iff]

end SqlMigrations.Proofs
