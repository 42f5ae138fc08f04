import Mathlib.Tactic.MkIffOfInductiveProp
import SqlMigrations.FileSystem.Disk
import SqlMigrations.Proofs.ByteOrder
import SqlMigrations.Proofs.Cuts

/-!
# Plain paths

A plain path is names joined by slashes. In memory its components are these names, on a disk it asks
to enter their bytes one after the other, and to join a name to it adds that name at its end.
-/

namespace SqlMigrations.Proofs

/-- A text that names a file or a directory in a directory of a disk. -/
@[mk_iff]
structure IsName (name : String) : Prop where
  nonempty : name ≠ ""
  ne_dot : name ≠ "."
  ne_dots : name ≠ ".."
  slashless : '/' ∉ name.toList
  nulless : '\x00' ∉ name.toList
  short : name.utf8ByteSize ≤ Disk.nameLimit

instance (name : String) : Decidable (IsName name) := decidable_of_iff' _ (isName_iff name)

/-- The path of some names, joined by slashes. -/
def pathOf (names : List String) : Path := ⟨Text.join "/" names⟩

/-- A byte below 128 stands for the character of its number. -/
lemma mem_of_ascii {text : String} {c : Char} (hc : c.val.toNat < 128)
    (h : UInt8.ofNat c.val.toNat ∈ utf8 text) : c ∈ text.toList := by
  rw [utf8_eq_flatMap, List.mem_flatMap] at h
  obtain ⟨d, hd, hbyte⟩ := h
  have hsame : c.val.toNat = d.val.toNat := by
    revert hbyte
    fun_cases String.utf8EncodeChar d <;> intro hbyte <;>
      simp only [List.mem_cons, List.not_mem_nil, or_false, ← UInt8.toNat_inj,
        UInt8.toNat_ofNat'] at hbyte <;> omega
  have hcd : c = d := Char.ext (UInt32.toNat_inj.mp hsame)
  exact hcd ▸ hd

section Texts

variable {name : String} {names : List String}

lemma text_pathOf_singleton : (pathOf [name]).text = name := by
  simp [pathOf, Text.join]

lemma text_pathOf_cons (name' : String) (names : List String) :
    (pathOf (name :: name' :: names)).text = name ++ "/" ++ (pathOf (name' :: names)).text := by
  apply String.toList_inj.mp
  simp [pathOf, Text.join]

lemma text_pathOf_concat (hnames : names ≠ []) :
    (pathOf (names ++ [name])).text = (pathOf names).text ++ "/" ++ name := by
  induction names with
  | nil => exact absurd rfl hnames
  | cons first names ih =>
    cases names with
    | nil =>
      rw [List.singleton_append, text_pathOf_cons, text_pathOf_singleton, text_pathOf_singleton]
    | cons second names =>
      have hrest := ih (List.cons_ne_nil second names)
      rw [List.cons_append, List.cons_append, text_pathOf_cons, text_pathOf_cons,
        ← List.cons_append, hrest]
      simp [String.append_assoc]

lemma pieces_pathOf (hnames : names ≠ []) (h : ∀ name ∈ names, '/' ∉ name.toList) :
    Text.pieces '/' (pathOf names).text.toList = names.map String.toList := by
  induction names with
  | nil => exact absurd rfl hnames
  | cons name names ih =>
    have hname : '/' ∉ name.toList := h name List.mem_cons_self
    cases names with
    | nil => rw [text_pathOf_singleton, pieces_eq_singleton hname]; rfl
    | cons name' names =>
      have hrest := ih (List.cons_ne_nil _ _) fun n hn => h n (List.mem_cons_of_mem _ hn)
      have htext : (pathOf (name :: name' :: names)).text.toList =
          name.toList ++ '/' :: (pathOf (name' :: names)).text.toList := by
        rw [text_pathOf_cons]
        simp
      rw [htext, pieces_append _ hname, hrest]
      rfl

end Texts

section Names

variable {name : String} {names : List String}

lemma IsName.toList_ne_nil (h : IsName name) : name.toList ≠ [] := fun hnil =>
  h.nonempty (String.toList_eq_nil_iff.mp hnil)

lemma componentOf?_toList (hnil : name.toList ≠ []) (hdot : name.toList ≠ ['.'])
    (hdots : name.toList ≠ ['.', '.']) :
    Path.componentOf? name.toList = some (.normal name) := by
  unfold Path.componentOf?
  rw [if_neg (by simp [hnil, hdot]), if_neg hdots, String.ofList_toList]

lemma IsName.componentOf? (h : IsName name) :
    Path.componentOf? name.toList = some (.normal name) :=
  componentOf?_toList h.toList_ne_nil (fun heq => h.ne_dot (String.toList_inj.mp heq))
    fun heq => h.ne_dots (String.toList_inj.mp heq)

/-- The pieces of a plain path do not start with an empty one. -/
lemma head?_pieces_pathOf (hnames : names ≠ []) (h : ∀ name ∈ names, IsName name) :
    (Text.pieces '/' (pathOf names).text.toList).head? ≠ some [] := by
  rw [pieces_pathOf hnames fun name hname => (h name hname).slashless, List.head?_map]
  intro hempty
  obtain ⟨name, hname, hnil⟩ := Option.map_eq_some_iff.mp hempty
  exact (h name (List.mem_of_mem_head? hname)).toList_ne_nil hnil

lemma head?_pathOf (hnames : names ≠ []) (h : ∀ name ∈ names, IsName name) :
    (pathOf names).text.toList.head? ≠ some '/' := by
  intro hslash
  obtain ⟨rest, hrest⟩ := List.head?_eq_some_iff.mp hslash
  refine head?_pieces_pathOf hnames h ?_
  rw [hrest, Text.pieces, if_pos rfl]
  rfl

lemma isEmpty_pathOf (hnames : names ≠ []) (h : ∀ name ∈ names, IsName name) :
    (pathOf names).isEmpty = false := by
  rw [← Bool.not_eq_true]
  intro hempty
  have htext : (pathOf names).text = "" := String.isEmpty_iff.mp hempty
  refine head?_pieces_pathOf hnames h ?_
  rw [htext]
  rfl

theorem components_pathOf (hnames : names ≠ []) (h : ∀ name ∈ names, IsName name) :
    (pathOf names).components = names.map .normal := by
  have hpieces := pieces_pathOf hnames fun name hname => (h name hname).slashless
  have hfirst : (names.map String.toList).head? ≠ some ['.'] := by
    cases names with
    | nil => exact absurd rfl hnames
    | cons name names =>
      intro hdot
      exact (h name List.mem_cons_self).ne_dot (String.toList_inj.mp (Option.some.inj hdot))
  unfold Path.components Path.componentsOf
  dsimp only
  rw [if_neg (head?_pathOf hnames h), hpieces, if_neg hfirst, List.nil_append, List.filterMap_map,
    ← List.filterMap_eq_map]
  exact List.filterMap_congr fun name hname => (h name hname).componentOf?

lemma getLast?_pathOf (hnames : names ≠ []) (h : ∀ name ∈ names, IsName name) :
    (pathOf names).text.toList.getLast? ≠ some '/' := by
  rcases List.eq_nil_or_concat names with rfl | ⟨above, last, rfl⟩
  · exact absurd rfl hnames
  · rw [List.concat_eq_append] at h ⊢
    have hlast := h last (List.mem_append_right _ (List.mem_singleton_self _))
    have hend : (pathOf (above ++ [last])).text.toList.getLast? = last.toList.getLast? := by
      by_cases habove : above = []
      · rw [habove, List.nil_append, text_pathOf_singleton]
      · rw [text_pathOf_concat habove, String.toList_append]
        exact List.getLast?_append_of_ne_nil _ hlast.toList_ne_nil
    rw [hend]
    exact fun hslash => hlast.slashless (List.mem_of_getLast? hslash)

/-- To join a name to a plain path adds the name at its end. -/
theorem join_pathOf (hnames : names ≠ []) (h : ∀ name ∈ names, IsName name)
    (hname : IsName name) : (pathOf names).join ⟨name⟩ = pathOf (names ++ [name]) := by
  have hrelative : (⟨name⟩ : Path).isAbsolute = false := by
    have hhead := head?_pathOf (List.cons_ne_nil name []) (List.forall_mem_singleton.mpr hname)
    rw [text_pathOf_singleton] at hhead
    simpa [Path.isAbsolute] using hhead
  have hopen : ((pathOf names).isEmpty || (pathOf names).text.toList.getLast? == some '/') =
      false := by
    rw [isEmpty_pathOf hnames h, Bool.false_or]
    simpa using getLast?_pathOf hnames h
  unfold Path.join
  rw [hrelative, hopen, if_neg Bool.false_ne_true, if_neg Bool.false_ne_true,
    ← text_pathOf_concat hnames]

end Names

section Moves

variable {name : String} {names : List String}

lemma diskPieces_ne_nil (bytes : List UInt8) : Disk.pieces bytes ≠ [] := by
  fun_cases Disk.pieces bytes <;> simp

lemma diskPieces_append_slash (front rest : List UInt8) :
    Disk.pieces (front ++ 47 :: rest) = Disk.pieces front ++ Disk.pieces rest := by
  induction front with
  | nil => simp [Disk.pieces]
  | cons b front ih =>
    rw [List.cons_append, Disk.pieces, Disk.pieces, ih]
    by_cases hb : b = 47
    · rw [if_pos hb, if_pos hb]
      rfl
    · obtain ⟨piece, pieces, hpieces⟩ := List.exists_cons_of_ne_nil (diskPieces_ne_nil front)
      rw [if_neg hb, if_neg hb, hpieces]
      rfl

lemma diskPieces_eq_singleton {bs : List UInt8} (h : 47 ∉ bs) : Disk.pieces bs = [bs] := by
  induction bs with
  | nil => rfl
  | cons b bs ih =>
    have hb : b ≠ 47 := fun hb => h (hb ▸ List.mem_cons_self)
    rw [Disk.pieces, if_neg hb, ih fun hs => h (List.mem_cons_of_mem b hs)]

lemma diskPieces_append {bs : List UInt8} (rest : List UInt8) (h : 47 ∉ bs) :
    Disk.pieces (bs ++ 47 :: rest) = bs :: Disk.pieces rest := by
  rw [diskPieces_append_slash, diskPieces_eq_singleton h]
  rfl

lemma IsName.not_long (h : IsName name) : ¬ Disk.nameLimit < (utf8 name).length := by
  rw [length_utf8]
  exact Nat.not_lt.mpr h.short

lemma IsName.slash_notMem_utf8 (h : IsName name) : 47 ∉ utf8 name := fun hslash =>
  h.slashless (mem_of_ascii (c := '/') (by decide) hslash)

lemma diskPieces_pathOf (hnames : names ≠ []) (h : ∀ name ∈ names, IsName name) :
    Disk.pieces (utf8 (pathOf names).text) = names.map utf8 := by
  induction names with
  | nil => exact absurd rfl hnames
  | cons name names ih =>
    have hname := h name List.mem_cons_self
    cases names with
    | nil => rw [text_pathOf_singleton, diskPieces_eq_singleton hname.slash_notMem_utf8]; rfl
    | cons name' names =>
      have hrest := ih (List.cons_ne_nil _ _) fun n hn => h n (List.mem_cons_of_mem _ hn)
      have hbytes : utf8 (pathOf (name :: name' :: names)).text =
          utf8 name ++ 47 :: utf8 (pathOf (name' :: names)).text := by
        rw [text_pathOf_cons, utf8_append, utf8_append, List.append_assoc]
        rfl
      rw [hbytes, diskPieces_append _ hname.slash_notMem_utf8, hrest]
      rfl

lemma IsName.utf8_ne_nil (h : IsName name) : utf8 name ≠ [] := fun heq =>
  h.nonempty (utf8_inj.mp (heq.trans rfl))

lemma IsName.moveOf_utf8 (h : IsName name) : Disk.moveOf (utf8 name) = .enter (utf8 name) := by
  have hdot : utf8 name ≠ [46] := fun heq => h.ne_dot (utf8_inj.mp (heq.trans rfl))
  have hdots : utf8 name ≠ [46, 46] := fun heq => h.ne_dots (utf8_inj.mp (heq.trans rfl))
  unfold Disk.moveOf
  rw [if_neg (by simp [h.utf8_ne_nil, hdot]), if_neg hdots]

/-- The moves that enter some names one after the other. -/
def entering (names : List String) : List Disk.Move := names.map fun name => .enter (utf8 name)

theorem moves_pathOf (hnames : names ≠ []) (h : ∀ name ∈ names, IsName name) :
    Disk.moves (pathOf names).text.toUTF8 = (false, entering names) := by
  have hmoves : (Disk.pieces (utf8 (pathOf names).text)).map Disk.moveOf = entering names := by
    rw [diskPieces_pathOf hnames h, List.map_map]
    exact List.map_congr_left fun name hname => (h name hname).moveOf_utf8
  unfold Disk.moves
  split
  · next rest heq =>
    -- A first slash would make an empty first piece.
    have hbytes : utf8 (pathOf names).text = 47 :: rest := heq
    have hpieces := diskPieces_pathOf hnames h
    rw [hbytes, Disk.pieces, if_pos rfl] at hpieces
    obtain ⟨name, hname, hnil⟩ := List.mem_map.mp (hpieces ▸ List.mem_cons_self)
    exact absurd hnil (h name hname).utf8_ne_nil
  · exact congrArg (Prod.mk false) hmoves

lemma mem_text_pathOf {c : Char} (h : c ∈ (pathOf names).text.toList) :
    c = '/' ∨ ∃ name ∈ names, c ∈ name.toList := by
  induction names with
  | nil => cases h
  | cons name names ih =>
    cases names with
    | nil =>
      rw [text_pathOf_singleton] at h
      exact .inr ⟨name, List.mem_cons_self, h⟩
    | cons name' names =>
      rw [text_pathOf_cons] at h
      simp only [String.toList_append, List.mem_append] at h
      rcases h with (h | h) | h
      · exact .inr ⟨name, List.mem_cons_self, h⟩
      · exact .inl (List.mem_singleton.mp h)
      · rcases ih h with hslash | ⟨n, hn, hc⟩
        · exact .inl hslash
        · exact .inr ⟨n, List.mem_cons_of_mem _ hn, hc⟩

lemma nul_notMem_utf8_pathOf (h : ∀ name ∈ names, IsName name) :
    0 ∉ utf8 (pathOf names).text := by
  intro hnul
  have hchar : '\x00' ∈ (pathOf names).text.toList := mem_of_ascii (by decide) hnul
  rcases mem_text_pathOf hchar with hslash | ⟨name, hname, hmem⟩
  · cases hslash
  · exact (h name hname).nulless hmem

end Moves

lemma nameText?_eq_some {name : FileName} {text : String} :
    Disk.nameText? name = some text ↔ name = utf8 text := by
  constructor
  · intro h
    unfold Disk.nameText? String.fromUTF8? at h
    split at h
    · rw [← Option.some.inj h]
      rfl
    · cases h
  · rintro rfl
    have hvalid : text.toByteArray.IsValidUTF8 := text.isValidUTF8
    change String.fromUTF8? text.toByteArray = some text
    unfold String.fromUTF8?
    rw [dif_pos hvalid]
    rfl

end SqlMigrations.Proofs
