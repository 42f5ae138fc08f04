import Mathlib.Tactic.MkIffOfInductiveProp
import SqlMigrations.Proofs.DiskWalks
import SqlMigrations.Proofs.MemoryFiles

/-!
# Trees on a disk

A tree of directories and regular files, made on an empty disk entry by entry in any order. While
it is made, the disk holds nothing but entries of the tree, so no making fails; in the end it holds
all of them, and every path leads to its entry.
-/

namespace SqlMigrations.Proofs

/-- A file with its content, or a directory without, and the names that lead to it. -/
structure TreeEntry where
  names : List String
  content : Option ByteArray

instance : DecidableEq TreeEntry := fun n n' =>
  decidable_of_iff
    (n.names = n'.names ∧ n.content.map ByteArray.data = n'.content.map ByteArray.data) <| by
      obtain ⟨names, content⟩ := n
      obtain ⟨names', content'⟩ := n'
      rw [(Option.map_injective fun _ _ => ByteArray.ext).eq_iff, TreeEntry.mk.injEq]

/-- The place on the disk that names lead to from the working directory. -/
def placeOf (names : List String) : Place := Disk.empty.cwd ++ names.map utf8

namespace TreeEntry

def path (n : TreeEntry) : Path := pathOf n.names

def addition (n : TreeEntry) : Addition := ⟨n.path, n.content⟩

def place (n : TreeEntry) : Place := placeOf n.names

def item (n : TreeEntry) : Disk.Item :=
  match n.content with
  | some bytes => .file bytes
  | none => .directory

end TreeEntry

/-- The entries of a tree: the directory in which one of them stands is among them. -/
@[mk_iff]
structure IsTree (entries : List TreeEntry) : Prop where
  named : ∀ n ∈ entries, n.names ≠ [] ∧ ∀ name ∈ n.names, IsName name
  short : ∀ n ∈ entries, n.path.text.utf8ByteSize ≤ Disk.pathLimit
  distinct : (entries.map TreeEntry.names).Nodup
  closed : ∀ n ∈ entries, n.names.dropLast = [] ∨ ⟨n.names.dropLast, none⟩ ∈ entries

instance (entries : List TreeEntry) : Decidable (IsTree entries) :=
  decidable_of_iff' _ (isTree_iff entries)

/-- Makes the entries on an empty disk. -/
def onDisk (entries : List TreeEntry) : Except IoError Disk :=
  entries.foldlM (fun d n => d.make n.path.text.toUTF8 n.item) .empty

section Places

variable {names names' : List String} {name : String}

lemma placeOf_nil : placeOf [] = Disk.empty.cwd := List.append_nil _

lemma placeOf_concat : placeOf (names ++ [name]) = placeOf names ++ [utf8 name] := by
  simp [placeOf]

lemma placeOf_ne_nil : placeOf names ≠ [] := by
  simp [placeOf, Disk.empty]

lemma placeOf_inj : placeOf names = placeOf names' ↔ names = names' := by
  unfold placeOf
  rw [List.append_cancel_left_eq]
  exact (List.map_injective_iff.mpr fun a b h => utf8_inj.mp h).eq_iff

end Places

section Trees

variable {entries : List TreeEntry} {n n' : TreeEntry}

lemma IsTree.perm {entries' : List TreeEntry} (h : IsTree entries) (hperm : entries.Perm entries') :
    IsTree entries' where
  named n hn := h.named n (hperm.mem_iff.mpr hn)
  short n hn := h.short n (hperm.mem_iff.mpr hn)
  distinct := (hperm.map _).nodup_iff.mp h.distinct
  closed n hn := (h.closed n (hperm.mem_iff.mpr hn)).imp_right hperm.mem_iff.mp

lemma IsTree.eq_of_names (h : IsTree entries) (hn : n ∈ entries) (hn' : n' ∈ entries)
    (hnames : n.names = n'.names) : n = n' :=
  List.inj_on_of_nodup_map h.distinct hn hn' hnames

lemma IsTree.parent (h : IsTree entries) (hn : n ∈ entries) {above : List String} {name : String}
    (hnames : n.names = above ++ [name]) (habove : above ≠ []) : ⟨above, none⟩ ∈ entries := by
  have hdrop : n.names.dropLast = above := by rw [hnames, List.dropLast_concat]
  rw [← hdrop] at habove ⊢
  exact (h.closed n hn).resolve_left habove

/-- What the names of an entry lead through are directories. -/
lemma IsTree.ancestor (h : IsTree entries) (hn : n ∈ entries) {above rest : List String}
    (hnames : n.names = above ++ rest) (habove : above ≠ []) (hrest : rest ≠ []) :
    ⟨above, none⟩ ∈ entries := by
  induction rest using List.reverseRecOn generalizing n with
  | nil => exact absurd rfl hrest
  | append_singleton rest name ih =>
    rw [← List.append_assoc] at hnames
    have hparent : ⟨above ++ rest, none⟩ ∈ entries :=
      h.parent hn hnames (List.append_ne_nil_of_left_ne_nil habove rest)
    by_cases hempty : rest = []
    · rw [hempty, List.append_nil] at hparent
      exact hparent
    · exact ih hparent rfl hempty

end Trees

section Items

variable {d : Disk} {place : Place} {item : Disk.Item}

lemma items_put : (d.put place item).items =
    if place ∈ d.items.map Prod.fst then
      d.items.map fun entry => if entry.1 = place then (place, item) else entry
    else d.items ++ [(place, item)] := by
  have hany : d.items.any (·.1 == place) = true ↔ place ∈ d.items.map Prod.fst := by
    simp only [List.any_eq_true, beq_iff_eq, List.mem_map]
  unfold Disk.put
  by_cases hmem : place ∈ d.items.map Prod.fst
  · rw [if_pos (hany.mpr hmem), if_pos hmem]
  · rw [if_neg (hany.not.mpr hmem), if_neg hmem]

lemma mem_put {entry : Place × Disk.Item} : entry ∈ (d.put place item).items ↔
    entry = (place, item) ∨ entry ∈ d.items ∧ entry.1 ≠ place := by
  rw [items_put]
  by_cases hmem : place ∈ d.items.map Prod.fst
  · rw [if_pos hmem, List.mem_map]
    constructor
    · rintro ⟨e, he, rfl⟩
      by_cases heq : e.1 = place
      · exact .inl (if_pos heq)
      · rw [if_neg heq]
        exact .inr ⟨he, heq⟩
    · rintro (rfl | ⟨he, hne⟩)
      · obtain ⟨old, hold, hplace⟩ := List.mem_map.mp hmem
        exact ⟨old, hold, if_pos hplace⟩
      · exact ⟨entry, he, if_neg hne⟩
  · have hfresh : entry ∈ d.items → entry.1 ≠ place := fun he heq =>
      hmem (List.mem_map.mpr ⟨entry, he, heq⟩)
    rw [if_neg hmem, List.mem_append, List.mem_singleton, or_comm]
    exact or_congr_right ⟨fun he => ⟨he, hfresh he⟩, fun he => he.1⟩

lemma keys_put (h : (d.items.map Prod.fst).Nodup) :
    ((d.put place item).items.map Prod.fst).Nodup := by
  rw [items_put]
  by_cases hmem : place ∈ d.items.map Prod.fst
  · have hkeys : (d.items.map fun entry => if entry.1 = place then (place, item) else entry).map
        Prod.fst = d.items.map Prod.fst := by
      rw [List.map_map]
      refine List.map_congr_left fun e _ => ?_
      by_cases heq : e.1 = place
      · simp [heq]
      · simp [heq]
    rw [if_pos hmem, hkeys]
    exact h
  · rw [if_neg hmem, List.map_append]
    exact h.append (List.nodup_singleton _) (List.disjoint_singleton.mpr hmem)

lemma itemAt?_iff_mem (h : (d.items.map Prod.fst).Nodup) (hplace : place ≠ []) :
    d.itemAt? place = some item ↔ (place, item) ∈ d.items := by
  unfold Disk.itemAt?
  rw [if_neg hplace, lookup_eq_some_iff_mem h]

end Items

/-- A disk that holds nothing but entries of a tree, some of which are in place. -/
structure Grown (entries made : List TreeEntry) (d : Disk) : Prop where
  cwd_eq : d.cwd = Disk.empty.cwd
  keys : (d.items.map Prod.fst).Nodup
  known : ∀ e ∈ d.items, e = (placeOf [], .directory) ∨ ∃ n ∈ entries, e = (n.place, n.item)
  present : ∀ n ∈ made, (n.place, n.item) ∈ d.items

section Grown

variable {entries made : List TreeEntry} {d : Disk} {n : TreeEntry}

lemma grown_empty : Grown entries [] .empty where
  cwd_eq := rfl
  keys := List.nodup_singleton _
  known e he := by
    rw [List.mem_singleton.mp he, placeOf_nil]
    exact .inl rfl
  present := by simp

lemma Grown.mark (h : Grown entries made d) (hn : (n.place, n.item) ∈ d.items) :
    Grown entries (n :: made) d :=
  { h with present := List.forall_mem_cons.mpr ⟨hn, h.present⟩ }

lemma Grown.item_eq (htree : IsTree entries) (h : Grown entries made d) (hn : n ∈ entries)
    {item : Disk.Item} (hitem : (n.place, item) ∈ d.items) : item = n.item := by
  rcases h.known _ hitem with heq | ⟨n', hn', heq⟩
  · have hnames : n.names = [] := placeOf_inj.mp (Prod.mk.inj heq).1
    exact absurd hnames (htree.named n hn).1
  · obtain ⟨hplace, rfl⟩ := Prod.mk.inj heq
    rw [htree.eq_of_names hn hn' (placeOf_inj.mp hplace)]

lemma Grown.put (htree : IsTree entries) (h : Grown entries made d) (hn : n ∈ entries) :
    Grown entries (n :: made) (d.put n.place n.item) where
  cwd_eq := by
    rw [← h.cwd_eq]
    unfold Disk.put
    split <;> rfl
  keys := keys_put h.keys
  known e he := by
    rcases mem_put.mp he with rfl | ⟨he, -⟩
    · exact .inr ⟨n, hn, rfl⟩
    · exact h.known e he
  present n' hn' := by
    rw [mem_put]
    rcases List.mem_cons.mp hn' with rfl | hn'
    · exact .inl rfl
    · have hpresent := h.present n' hn'
      by_cases hplace : n'.place = n.place
      · rw [hplace] at hpresent ⊢
        exact .inl (Prod.ext rfl (h.item_eq htree hn hpresent))
      · exact .inr ⟨hpresent, hplace⟩

lemma Grown.itemAt?_eq_some (htree : IsTree entries) (h : Grown entries made d) (hn : n ∈ entries)
    {item : Disk.Item} : d.itemAt? n.place = some item → item = n.item := fun hitem =>
  h.item_eq htree hn ((itemAt?_iff_mem h.keys placeOf_ne_nil).mp hitem)

/-- One step of a walk leads to the entry, if it is made already. -/
lemma Grown.follow_name (htree : IsTree entries) (h : Grown entries made d) (hn : n ∈ entries)
    {above : List String} {name : String} (hnames : n.names = above ++ [name]) :
    (d.follow Disk.linkLimit (placeOf above) [.enter (utf8 name)] = .ok (n.place, some n.item) ∧
      (n.place, n.item) ∈ d.items) ∨
    d.follow Disk.linkLimit (placeOf above) [.enter (utf8 name)] = .ok (n.place, none) := by
  have hname : IsName name := (htree.named n hn).2 name (by simp [hnames])
  have hplace : placeOf above ++ [utf8 name] = n.place := by
    rw [← placeOf_concat, ← hnames]
    rfl
  unfold Disk.follow Disk.walk
  rw [if_neg hname.not_long, hplace]
  cases hitem : d.itemAt? n.place with
  | none => exact .inr rfl
  | some item =>
    have hsame : item = n.item := h.itemAt?_eq_some htree hn hitem
    rw [hsame] at hitem ⊢
    refine .inl ⟨?_, (itemAt?_iff_mem h.keys placeOf_ne_nil).mp hitem⟩
    cases hcontent : n.content <;> simp [TreeEntry.item, hcontent, Disk.walk]

lemma Grown.enter (htree : IsTree entries) (h : Grown entries made d)
    {above : List String} {name : String} (hn : ⟨above ++ [name], none⟩ ∈ entries) :
    ∃ d', Grown entries (⟨above ++ [name], none⟩ :: made) d' ∧
      ∀ rest, d.makeDirs (placeOf above) (.enter (utf8 name) :: rest) =
        d'.makeDirs (placeOf (above ++ [name])) rest := by
  rcases h.follow_name htree hn rfl with ⟨hfollow, hmem⟩ | hfollow
  · refine ⟨d, h.mark hmem, fun rest => ?_⟩
    rw [Disk.makeDirs, hfollow]
    rfl
  · refine ⟨_, h.put htree hn, fun rest => ?_⟩
    rw [Disk.makeDirs, hfollow]
    exact if_pos placeOf_concat

lemma Grown.makeDirs (htree : IsTree entries) (h : Grown entries made d) {above rest : List String}
    (hrest : ∀ part, part ≠ [] → part <+: rest → ⟨above ++ part, none⟩ ∈ entries) :
    ∃ d', Grown entries made d' ∧
      d.makeDirs (placeOf above) (entering rest) = .ok (placeOf (above ++ rest), d') := by
  induction rest generalizing above d with
  | nil =>
    rw [List.append_nil]
    exact ⟨d, h, rfl⟩
  | cons name rest ih =>
    have hname : ⟨above ++ [name], none⟩ ∈ entries :=
      hrest [name] (List.cons_ne_nil name []) (List.prefix_append [name] rest)
    obtain ⟨d₁, h₁, hmake⟩ := h.enter htree hname
    have h₁' : Grown entries made d₁ :=
      { h₁ with present := fun n hn => h₁.present n (List.mem_cons_of_mem _ hn) }
    have hfurther : ∀ part, part ≠ [] → part <+: rest →
        ⟨above ++ [name] ++ part, none⟩ ∈ entries := by
      intro part _ hprefix
      rw [List.append_assoc]
      exact hrest (name :: part) (List.cons_ne_nil name part)
        (List.cons_prefix_cons.mpr ⟨rfl, hprefix⟩)
    obtain ⟨d₂, h₂, hmakes⟩ := ih h₁' hfurther
    refine ⟨d₂, h₂, ?_⟩
    change d.makeDirs (placeOf above) (.enter (utf8 name) :: entering rest) = _
    rw [hmake, hmakes, List.append_assoc]
    rfl

lemma splitTarget_entering (above : List String) (name : String) :
    Disk.splitTarget (entering (above ++ [name])) = (entering above, some (utf8 name)) := by
  have hmoving : (entering (above ++ [name])).filter (· ≠ .stay) =
      entering above ++ [.enter (utf8 name)] := by
    rw [List.filter_eq_self.mpr]
    · simp [entering]
    · intro move hmove
      obtain ⟨n, -, rfl⟩ := List.mem_map.mp hmove
      rfl
  unfold Disk.splitTarget
  rw [hmoving]
  simp

lemma Grown.makeIn (htree : IsTree entries) (h : Grown entries made d) (hn : n ∈ entries)
    {above : List String} {name : String} (hnames : n.names = above ++ [name]) :
    ∃ d', d.makeIn (placeOf above) (utf8 name) n.item = .ok d' ∧ Grown entries (n :: made) d' := by
  obtain ⟨names, content⟩ := n
  obtain rfl := hnames
  cases content with
  | none =>
    obtain ⟨d', h', hmake⟩ := h.enter htree hn
    refine ⟨d', ?_, h'⟩
    change (do return (← d.makeDirs (placeOf above) [.enter (utf8 name)]).2) = _
    rw [hmake []]
    rfl
  | some bytes =>
    refine ⟨_, ?_, h.put htree hn⟩
    change d.makeIn (placeOf above) (utf8 name) (.file bytes) = _
    rcases h.follow_name htree hn rfl with ⟨hfollow, -⟩ | hfollow
    · rw [Disk.makeIn, hfollow]
      rfl
    · rw [Disk.makeIn, hfollow]
      rfl

theorem Grown.make (htree : IsTree entries) (h : Grown entries made d) (hn : n ∈ entries) :
    ∃ d', d.make n.path.text.toUTF8 n.item = .ok d' ∧ Grown entries (n :: made) d' := by
  obtain ⟨hne, hnames⟩ := htree.named n hn
  rcases List.eq_nil_or_concat n.names with hnil | ⟨above, name, hsplit⟩
  · exact absurd hnil hne
  rw [List.concat_eq_append] at hsplit
  have habove : ∀ part, part ≠ [] → part <+: above → ⟨[] ++ part, none⟩ ∈ entries := by
    rintro part hpart ⟨rest, rfl⟩
    rw [List.append_assoc] at hsplit
    exact htree.ancestor hn hsplit hpart (by simp)
  obtain ⟨d₁, h₁, hdirs⟩ := h.makeDirs htree habove
  obtain ⟨d₂, hmake, h₂⟩ := h₁.makeIn htree hn hsplit
  refine ⟨d₂, ?_, h₂⟩
  have hmoves : Disk.moves n.path.text.toUTF8 = (false, entering (above ++ [name])) := by
    rw [← hsplit]
    exact moves_pathOf hne hnames
  rw [placeOf_nil, ← h.cwd_eq, List.nil_append] at hdirs
  unfold Disk.make
  rw [hmoves]
  dsimp only
  rw [splitTarget_entering]
  dsimp only
  rw [if_neg Bool.false_ne_true, hdirs]
  exact hmake

lemma Grown.foldlM_make (htree : IsTree entries) (h : Grown entries made d)
    {todo : List TreeEntry} (htodo : ∀ n ∈ todo, n ∈ entries) :
    ∃ d', todo.foldlM (fun d n => d.make n.path.text.toUTF8 n.item) d = .ok d' ∧
      Grown entries (todo.reverse ++ made) d' := by
  induction todo generalizing made d with
  | nil => exact ⟨d, rfl, h⟩
  | cons n todo ih =>
    obtain ⟨d₁, hmake, h₁⟩ := h.make htree (htodo n List.mem_cons_self)
    obtain ⟨d₂, hrest, h₂⟩ := ih h₁ fun n' hn' => htodo n' (List.mem_cons_of_mem n hn')
    refine ⟨d₂, ?_, ?_⟩
    · rw [List.foldlM_cons, hmake]
      exact hrest
    · rw [List.reverse_cons, List.append_assoc]
      exact h₂

/-- A tree can be made, and in the end all of it is in place. -/
theorem exists_onDisk (htree : IsTree entries) :
    ∃ d, onDisk entries = .ok d ∧ Grown entries entries d := by
  obtain ⟨d, hd, h⟩ := grown_empty.foldlM_make htree fun n hn => hn
  refine ⟨d, hd, { h with present := fun n hn => h.present n ?_ }⟩
  exact List.mem_append_left _ (List.mem_reverse.mpr hn)

end Grown

section Reading

variable {entries : List TreeEntry} {d : Disk} {n : TreeEntry}

lemma Grown.itemAt?_place (h : Grown entries entries d) (hn : n ∈ entries) :
    d.itemAt? n.place = some n.item :=
  (itemAt?_iff_mem h.keys placeOf_ne_nil).mpr (h.present n hn)

/-- The names of an entry lead to it past directories alone. -/
lemma Grown.leads (htree : IsTree entries) (h : Grown entries entries d) (hn : n ∈ entries)
    {above rest : List String} (hnames : n.names = above ++ rest) (hrest : rest ≠ []) :
    Leads d 0 (placeOf above) (entering rest) n.place n.item := by
  induction rest generalizing above with
  | nil => exact absurd rfl hrest
  | cons name rest ih =>
    have hname : IsName name := (htree.named n hn).2 name (by simp [hnames])
    have hshort : (utf8 name).length ≤ Disk.nameLimit := Nat.not_lt.mp hname.not_long
    by_cases hlast : rest = []
    · have hplace : placeOf above ++ [utf8 name] = n.place := by
        rw [← placeOf_concat, TreeEntry.place, hnames, hlast]
      have hitem : d.itemAt? (placeOf above ++ [utf8 name]) = some n.item := by
        rw [hplace]
        exact h.itemAt?_place hn
      rw [hlast, ← hplace]
      cases hcontent : n.content with
      | some bytes =>
        simp only [TreeEntry.item, hcontent] at hitem ⊢
        exact .file hshort hitem
      | none =>
        simp only [TreeEntry.item, hcontent] at hitem ⊢
        exact .enter hshort hitem .done
    · have hsplit : n.names = (above ++ [name]) ++ rest := by rw [hnames]; simp
      have hdir : ⟨above ++ [name], none⟩ ∈ entries := htree.ancestor hn hsplit (by simp) hlast
      have hitem : d.itemAt? (placeOf above ++ [utf8 name]) = some .directory := by
        rw [← placeOf_concat]
        exact h.itemAt?_place hdir
      refine .enter hshort hitem ?_
      rw [← placeOf_concat]
      exact ih hsplit hlast

lemma IsTree.admissible (htree : IsTree entries) (hn : n ∈ entries) : Admissible n.path := by
  obtain ⟨hne, hnames⟩ := htree.named n hn
  refine ⟨fun htext => ?_, nul_notMem_utf8_pathOf hnames, htree.short n hn⟩
  have hopen := isEmpty_pathOf hne hnames
  rw [Path.isEmpty, String.isEmpty_eq_false_iff] at hopen
  exact hopen htext

theorem Grown.resolve (htree : IsTree entries) (h : Grown entries entries d) (hn : n ∈ entries) :
    d.resolve n.path = .ok (n.place, n.item) := by
  obtain ⟨hne, hnames⟩ := htree.named n hn
  have hmoves : Disk.moves n.path.text.toUTF8 = (false, entering n.names) :=
    moves_pathOf hne hnames
  have hleads : PathLeads d 0 n.path n.place n.item := by
    unfold PathLeads
    rw [hmoves, if_neg Bool.false_ne_true, h.cwd_eq, ← placeOf_nil]
    exact h.leads htree hn (List.nil_append n.names).symm hne
  exact resolve_eq_ok.mpr ⟨htree.admissible hn, 0, Nat.zero_le _, hleads⟩

theorem Grown.readBytes (htree : IsTree entries) (h : Grown entries entries d) (hn : n ∈ entries)
    {bytes : ByteArray} (hbytes : n.content = some bytes) : d.readBytes n.path = .ok bytes := by
  have hresolve := h.resolve htree hn
  simp only [TreeEntry.item, hbytes] at hresolve
  exact readBytes_eq_ok.mpr ⟨n.place, hresolve⟩

lemma Grown.isFile (htree : IsTree entries) (h : Grown entries entries d) (hn : n ∈ entries) :
    d.isFile n.path = n.content.isSome := by
  unfold Disk.isFile
  rw [h.resolve htree hn]
  cases hcontent : n.content <;> simp [TreeEntry.item, hcontent]

end Reading

/-- A listing holds the entries right below the names, each once. -/
structure IsListing (entries : List TreeEntry) (names : List String) (listing : List DirEntry) :
    Prop where
  nodup : listing.Nodup
  mem_iff : ∀ e, e ∈ listing ↔
    ∃ child ∈ entries, child.names = names ++ [e.name] ∧ child.content.isSome = e.isFile

lemma IsListing.perm {entries : List TreeEntry} {names : List String}
    {listing listing' : List DirEntry} (h : IsListing entries names listing)
    (h' : IsListing entries names listing') : listing.Perm listing' :=
  (List.perm_ext_iff_of_nodup h.nodup h'.nodup).mpr fun e => (h.mem_iff e).trans (h'.mem_iff e).symm

section Listings

variable {entries : List TreeEntry} {d : Disk} {n : TreeEntry}

/-- The name under which an item stands in a directory. -/
def nameRightBelow? (place at_ : Place) : Option FileName :=
  match at_.getLast? with
  | some name => if at_.dropLast = place then some name else none
  | none => none

lemma nameRightBelow?_eq_some {place at_ : Place} {name : FileName} :
    nameRightBelow? place at_ = some name ↔ at_ = place ++ [name] := by
  unfold nameRightBelow?
  rcases List.eq_nil_or_concat at_ with rfl | ⟨above, last, rfl⟩
  · simp
  · simp

lemma namesIn_eq (place : Place) :
    d.namesIn place = (d.items.map Prod.fst).filterMap (nameRightBelow? place) := by
  rw [List.filterMap_map]
  rfl

lemma mem_namesIn {place : Place} {name : FileName} :
    name ∈ d.namesIn place ↔ ∃ item, (place ++ [name], item) ∈ d.items := by
  simp [namesIn_eq, nameRightBelow?_eq_some]

lemma namesIn_nodup (h : (d.items.map Prod.fst).Nodup) (place : Place) :
    (d.namesIn place).Nodup := by
  rw [namesIn_eq]
  refine h.filterMap fun at_ at' name hat hat' => ?_
  rw [nameRightBelow?_eq_some.mp hat, nameRightBelow?_eq_some.mp hat']

lemma mem_textNames {place : Place} {name : String} :
    name ∈ (d.namesIn place).filterMap Disk.nameText? ↔
      ∃ item, (place ++ [utf8 name], item) ∈ d.items := by
  simp only [List.mem_filterMap, nameText?_eq_some, exists_eq_right, mem_namesIn]

lemma textNames_nodup (h : (d.items.map Prod.fst).Nodup) (place : Place) :
    ((d.namesIn place).filterMap Disk.nameText?).Nodup := by
  refine (namesIn_nodup h place).filterMap fun name name' text htext htext' => ?_
  rw [nameText?_eq_some.mp htext, nameText?_eq_some.mp htext']

lemma placeOf_eq_concat {names above : List String} {bytes : FileName} :
    placeOf names = placeOf above ++ [bytes] ↔
      ∃ name, names = above ++ [name] ∧ bytes = utf8 name := by
  constructor
  · intro h
    unfold placeOf at h
    rw [List.append_assoc, List.append_cancel_left_eq] at h
    obtain ⟨front, last, rfl, hfront, hlast⟩ := List.map_eq_append_iff.mp h
    obtain ⟨name, rfl, hname⟩ := List.map_eq_singleton_iff.mp hlast
    have habove : front = above :=
      List.map_injective_iff.mpr (fun a b hab => utf8_inj.mp hab) hfront
    exact ⟨name, by rw [habove], hname.symm⟩
  · rintro ⟨name, rfl, rfl⟩
    exact placeOf_concat

lemma Grown.mem_textNames (h : Grown entries entries d) {text : String} :
    text ∈ (d.namesIn n.place).filterMap Disk.nameText? ↔
      ∃ child ∈ entries, child.names = n.names ++ [text] := by
  rw [Proofs.mem_textNames]
  constructor
  · rintro ⟨item, hmem⟩
    rcases h.known _ hmem with heq | ⟨child, hchild, heq⟩
    · have hroot : placeOf [] = placeOf n.names ++ [utf8 text] := (Prod.mk.inj heq).1.symm
      obtain ⟨text', htext, -⟩ := placeOf_eq_concat.mp hroot
      cases List.append_eq_nil_iff.mp htext.symm |>.2
    · have hplace : placeOf child.names = placeOf n.names ++ [utf8 text] :=
        (Prod.mk.inj heq).1.symm
      obtain ⟨text', htext, hsame⟩ := placeOf_eq_concat.mp hplace
      exact ⟨child, hchild, utf8_inj.mp hsame ▸ htext⟩
  · rintro ⟨child, hchild, htext⟩
    have hplace : child.place = n.place ++ [utf8 text] :=
      placeOf_eq_concat.mpr ⟨text, htext, rfl⟩
    exact ⟨child.item, hplace ▸ h.present child hchild⟩

theorem Grown.listDir (htree : IsTree entries) (h : Grown entries entries d) (hn : n ∈ entries)
    (hdir : n.content = none) : ∃ listing, d.listDir n.path = .ok listing ∧
      IsListing entries n.names listing := by
  obtain ⟨hne, hnames⟩ := htree.named n hn
  have hresolve := h.resolve htree hn
  simp only [TreeEntry.item, hdir] at hresolve
  have hchild : ∀ child ∈ entries, ∀ text, child.names = n.names ++ [text] →
      d.isFile (n.path.join ⟨text⟩) = child.content.isSome := by
    intro child hmem text htext
    have hname : IsName text := (htree.named child hmem).2 text (by simp [htext])
    rw [TreeEntry.path, join_pathOf hne hnames hname, ← htext]
    exact h.isFile htree hmem
  refine ⟨_, listDir_eq_ok.mpr ⟨n.place, hresolve, rfl⟩, ?_, fun e => ?_⟩
  · exact (textNames_nodup h.keys _).map fun a b hab => (DirEntry.mk.inj hab).1
  · obtain ⟨text, isFile⟩ := e
    simp only [List.mem_map, h.mem_textNames]
    constructor
    · rintro ⟨text', ⟨child, hmem, htext⟩, heq⟩
      obtain ⟨rfl, rfl⟩ := DirEntry.mk.inj heq
      exact ⟨child, hmem, htext, (hchild child hmem _ htext).symm⟩
    · rintro ⟨child, hmem, htext, rfl⟩
      exact ⟨text, ⟨child, hmem, htext⟩, by rw [hchild child hmem text htext]⟩

end Listings

end SqlMigrations.Proofs
