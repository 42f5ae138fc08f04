import Mathlib.Tactic.MkIffOfInductiveProp
import SqlMigrations.Proofs.DiskTrees
import SqlMigrations.Proofs.DiskWalks

/-!
# Places on a disk

On a disk that is made from nothing no place is taken twice, and every place ends in a name that can
be entered: what is put there was asked for by a path or by the target of a link, and these never
ask to enter an empty name, a dot, two dots or a name with a slash.
-/

namespace SqlMigrations.Proofs

open Disk (Item Move)

/-- A disk on which no place is taken twice and whose places end in names that can be entered. -/
@[mk_iff]
structure WellPlaced (d : Disk) : Prop where
  distinct : (d.items.map Prod.fst).Nodup
  named : ∀ entry ∈ d.items, ∀ name ∈ entry.1.getLast?, Enterable name

instance (d : Disk) : Decidable (WellPlaced d) := decidable_of_iff' _ (wellPlaced_iff d)

/-- Moves that enter nothing but names that can be entered. -/
def Sound (todo : List Move) : Prop := ∀ name, .enter name ∈ todo → Enterable name

/-- A place that ends in a name that can be entered, unless it is the root. -/
def EndsWell (place : Place) : Prop := ∀ name ∈ place.getLast?, Enterable name

section Moves

variable {todo rest : List Move} {name : FileName} {place : Place}

lemma Sound.of_subset (h : Sound todo) (hrest : rest ⊆ todo) : Sound rest := fun name hname =>
  h name (hrest hname)

lemma Sound.tail {move : Move} (h : Sound (move :: rest)) : Sound rest :=
  h.of_subset (List.subset_cons_self move rest)

lemma Sound.head (h : Sound (.enter name :: rest)) : Enterable name := h name List.mem_cons_self

lemma Sound.append (h : Sound todo) (hrest : Sound rest) : Sound (todo ++ rest) := by
  intro name hname
  exact (List.mem_append.mp hname).elim (h name) (hrest name)

lemma sound_enter (h : Enterable name) : Sound [.enter name] := by
  intro name' hname'
  cases List.mem_singleton.mp hname'
  exact h

lemma slash_notMem_of_mem_diskPieces {bytes piece : List UInt8} (h : piece ∈ Disk.pieces bytes) :
    47 ∉ piece := by
  induction bytes generalizing piece with
  | nil => simp_all [Disk.pieces]
  | cons b bytes ih =>
    rw [Disk.pieces] at h
    by_cases hb : b = 47
    · rw [if_pos hb] at h
      rcases List.mem_cons.mp h with rfl | h
      · exact List.not_mem_nil
      · exact ih h
    · rw [if_neg hb] at h
      obtain ⟨first, others, hpieces⟩ := List.exists_cons_of_ne_nil (diskPieces_ne_nil bytes)
      rw [hpieces] at h ih
      rcases List.mem_cons.mp h with rfl | h
      · have hfirst : 47 ∉ first := ih List.mem_cons_self
        simp [hfirst, Ne.symm hb]
      · exact ih (List.mem_cons_of_mem first h)

lemma eq_of_moveOf {piece : List UInt8} (h : Disk.moveOf piece = .enter name) : piece = name := by
  unfold Disk.moveOf at h
  split at h
  · cases h
  · split at h
    · cases h
    · exact Move.enter.inj h

theorem sound_moves (path : ByteArray) : Sound (Disk.moves path).2 := by
  have hpieces : ∀ bytes, Sound ((Disk.pieces bytes).map Disk.moveOf) := by
    intro bytes name hname
    obtain ⟨piece, hpiece, hmove⟩ := List.mem_map.mp hname
    obtain rfl := eq_of_moveOf hmove
    exact ⟨slash_notMem_of_mem_diskPieces hpiece, hmove⟩
  unfold Disk.moves
  split
  · exact hpieces _
  · exact hpieces _

lemma endsWell_concat (h : Enterable name) : EndsWell (place ++ [name]) := by
  intro name' hname'
  rw [List.getLast?_concat] at hname'
  exact Option.some.inj hname' ▸ h

end Moves

/-! ### Where something can be put -/

section Walks

variable {d : Disk} {links : Nat} {here place : Place} {todo : List Move} {content : ByteArray}

/-- What a walk by sound moves meets, unless it is a directory, was entered by its name. -/
lemma walk_sound (d : Disk) (here : Place) (h : Sound todo) :
    match d.walk here todo with
    | .vacant place | .found place (.file _) => EndsWell place
    | .meetsLink _ _ rest => Sound rest
    | _ => True := by
  fun_induction Disk.walk d here todo with
  | case1 => trivial
  | case2 here rest ih => exact ih h.tail
  | case3 here rest ih => exact ih h.tail
  | case4 => trivial
  | case5 => exact endsWell_concat h.head
  | case6 => trivial
  | case7 here name rest hshort there ih => exact ih h.tail
  | case8 => exact h.tail
  | case9 => exact endsWell_concat h.head
  | case10 => trivial

lemma follow_sound (h : Sound todo) {item? : Option Item}
    (hfollow : d.follow links here todo = .ok (place, item?))
    (hitem : item? = none ∨ ∃ content, item? = some (.file content)) : EndsWell place := by
  fun_induction Disk.follow d links here todo with
  | case1 links here todo found item hmet =>
    have hwalk := walk_sound d here h
    rw [hmet] at hwalk
    obtain ⟨rfl, rfl⟩ := Prod.mk.inj (Except.ok.inj hfollow)
    rcases hitem with hnone | ⟨content, hfile⟩
    · cases hnone
    · obtain rfl := Option.some.inj hfile
      exact hwalk
  | case2 links here todo vacant hmet =>
    have hwalk := walk_sound d here h
    rw [hmet] at hwalk
    obtain ⟨rfl, -⟩ := Prod.mk.inj (Except.ok.inj hfollow)
    exact hwalk
  | case3 => cases hfollow
  | case4 => cases hfollow
  | case5 here todo parent target rest hmet links fromRoot first hmoves ih =>
    -- The moves of a target are sound like those of a path.
    have hwalk := walk_sound d here h
    rw [hmet] at hwalk
    have hfirst : Sound first := by
      have htarget := sound_moves target
      rw [hmoves] at htarget
      exact htarget
    exact ih (hfirst.append hwalk) hfollow

end Walks

section Making

variable {d d' : Disk} {here place : Place} {todo : List Move} {item : Item} {path : Path}

lemma wellPlaced_empty : WellPlaced .empty := by decide +kernel

lemma WellPlaced.put (h : WellPlaced d) (hplace : EndsWell place) :
    WellPlaced (d.put place item) where
  distinct := keys_put h.distinct
  named entry hentry := by
    rcases mem_put.mp hentry with rfl | ⟨hentry, -⟩
    · exact hplace
    · exact h.named entry hentry

lemma WellPlaced.makeDirs (h : WellPlaced d) (htodo : Sound todo)
    (hmake : d.makeDirs here todo = .ok (place, d')) : WellPlaced d' := by
  fun_induction Disk.makeDirs d here todo with
  | case1 d here =>
    obtain ⟨-, rfl⟩ := Prod.mk.inj (Except.ok.inj hmake)
    exact h
  | case2 d here rest ih => exact ih h htodo.tail hmake
  | case3 d here rest ih => exact ih h htodo.tail hmake
  | case4 d here name rest found hfollow ih => exact ih h htodo.tail hmake
  | case5 => cases hmake
  | case6 d here name rest hfollow ih =>
    have hvacant : EndsWell (here ++ [name]) := endsWell_concat htodo.head
    exact ih (h.put hvacant) htodo.tail hmake
  | case7 => cases hmake
  | case8 => cases hmake

lemma WellPlaced.makeIn {name : FileName} (h : WellPlaced d) (hname : Enterable name)
    (hmake : d.makeIn here name item = .ok d') : WellPlaced d' := by
  have hsound : Sound [.enter name] := sound_enter hname
  cases item with
  | directory =>
    obtain ⟨⟨parent, made⟩, hdirs, hmade⟩ := bind_eq_ok.mp hmake
    obtain rfl := Except.ok.inj hmade
    exact h.makeDirs hsound hdirs
  | link target =>
    unfold Disk.makeIn at hmake
    dsimp only at hmake
    have hwalk := walk_sound d here hsound
    cases hmet : d.walk here [.enter name] with
    | vacant vacant =>
      rw [hmet] at hmake hwalk
      obtain rfl := Except.ok.inj hmake
      exact h.put hwalk
    | found => rw [hmet] at hmake; cases hmake
    | fails => rw [hmet] at hmake; cases hmake
    | meetsLink => rw [hmet] at hmake; cases hmake
  | file content =>
    unfold Disk.makeIn at hmake
    dsimp only at hmake
    split at hmake
    · next made hfollow =>
      obtain rfl := Except.ok.inj hmake
      exact h.put (follow_sound hsound hfollow (.inl rfl))
    · next made content' hfollow =>
      obtain rfl := Except.ok.inj hmake
      exact h.put (follow_sound hsound hfollow (.inr ⟨content', rfl⟩))
    · cases hmake
    · cases hmake

lemma splitTarget_sound (h : Sound todo) :
    Sound (Disk.splitTarget todo).1 ∧ ∀ name ∈ (Disk.splitTarget todo).2, Enterable name := by
  have hmoving : Sound (todo.filter (· ≠ .stay)) := h.of_subset (List.filter_subset_self _)
  unfold Disk.splitTarget
  split
  · next name hlast =>
    refine ⟨hmoving.of_subset (List.dropLast_subset _), fun name' hname' => ?_⟩
    obtain rfl := Option.some.inj hname'
    exact hmoving name (List.mem_of_getLast? hlast)
  · exact ⟨h, nofun⟩

/-- Whatever is made on a disk, its places stay well. -/
theorem WellPlaced.make {bytes : ByteArray} (h : WellPlaced d)
    (hmake : d.make bytes item = .ok d') : WellPlaced d' := by
  obtain ⟨habove, hname⟩ := splitTarget_sound (sound_moves bytes)
  unfold Disk.make at hmake
  dsimp only at hmake
  obtain ⟨⟨parent, made⟩, hdirs, hmade⟩ := bind_eq_ok.mp hmake
  have hparent : WellPlaced made := h.makeDirs habove hdirs
  dsimp only at hmade
  cases hlast : (Disk.splitTarget (Disk.moves bytes).2).2 with
  | some name =>
    rw [hlast] at hmade
    exact hparent.makeIn (hname name hlast) hmade
  | none =>
    rw [hlast] at hmade
    cases item with
    | directory =>
      obtain rfl := Except.ok.inj hmade
      exact hparent
    | file content => cases hmade
    | link target => cases hmade

lemma WellPlaced.foldlM_make {made : List (ByteArray × Item)} (h : WellPlaced d)
    (hmade : made.foldlM (fun (d : Disk) n => d.make n.1 n.2) d = .ok d') : WellPlaced d' := by
  induction made generalizing d with
  | nil => exact Except.ok.inj hmade ▸ h
  | cons n made ih =>
    rw [List.foldlM_cons] at hmade
    obtain ⟨d₁, hfirst, hrest⟩ := bind_eq_ok.mp hmade
    exact ih (h.make hfirst) hrest

theorem wellPlaced_of_made {made : List (ByteArray × Item)}
    (hmade : made.foldlM (fun (d : Disk) n => d.make n.1 n.2) .empty = .ok d) : WellPlaced d :=
  wellPlaced_empty.foldlM_make hmade

/-- What is removed leaves the places of the rest as they are. -/
theorem WellPlaced.remove (h : WellPlaced d) (path : Path) : WellPlaced (d.remove path) := by
  unfold Disk.remove
  dsimp only
  split
  · split
    · exact ⟨h.distinct.sublist (List.filter_sublist.map _), fun entry hentry =>
        h.named entry (List.mem_of_mem_filter hentry)⟩
    · exact h
  · exact h

end Making

end SqlMigrations.Proofs
