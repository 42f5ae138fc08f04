import SqlMigrations.Proofs.PlainPaths

/-!
# Names joined to paths

What a path becomes by a name that is joined to it: however the path is spelled, its components are
followed by the name. A slash or a dot more in a path leaves its components as they are.
-/

namespace SqlMigrations.Proofs

open SqlMigrations.Path (Component)

/-- A name that stands for itself among the components of a path. -/
structure IsComponent (name : String) : Prop where
  slashless : '/' ∉ name.toList
  named : Path.componentOf? name.toList = some (.normal name)

/-- A path and one that says the same with a slash or a dot more. -/
inductive Respelled : Path → Path → Prop
  | doubled (front rest : String) : Respelled ⟨front ++ "/" ++ rest⟩ ⟨front ++ "//" ++ rest⟩
  | dotted (front rest : String) : Respelled ⟨front ++ "/" ++ rest⟩ ⟨front ++ "/./" ++ rest⟩
  | ended (path : String) (nonempty : path ≠ "") : Respelled ⟨path⟩ ⟨path ++ "/"⟩

/-- Unless a path is empty, what is joined to it stands behind one slash, which the path may have
at its end already. -/
lemma join_cases (path : Path) {name : String} (hname : name.toList.head? ≠ some '/') :
    (path.text = "" ∧ path.join ⟨name⟩ = ⟨name⟩) ∨
    ∃ front, (path.text = front ++ "/" ∨ path.text = front ∧ front ≠ "") ∧
      path.join ⟨name⟩ = ⟨front ++ "/" ++ name⟩ := by
  have hrelative : (⟨name⟩ : Path).isAbsolute = false := by simpa [Path.isAbsolute] using hname
  unfold Path.join
  rw [hrelative, if_neg Bool.false_ne_true]
  by_cases hempty : path.text = ""
  · left
    simp [hempty, Path.isEmpty]
  · right
    have hopen : path.isEmpty = false := by simpa [Path.isEmpty] using hempty
    by_cases hend : path.text.toList.getLast? = some '/'
    · obtain ⟨front, hfront⟩ := List.getLast?_eq_some_iff.mp hend
      have htext : path.text = String.ofList front ++ "/" := by
        rw [← String.toList_inj, hfront]
        simp
      refine ⟨String.ofList front, .inl htext, ?_⟩
      rw [hopen, hend, htext]
      simp
    · refine ⟨path.text, .inr ⟨rfl, hempty⟩, ?_⟩
      simp [hopen, hend]

section Components

variable {front rest : List Char} {name : String}

lemma head?_pieces_append (pieces : List (List Char)) :
    (Text.pieces '/' front ++ pieces).head? = (Text.pieces '/' front).head? :=
  List.head?_append_of_ne_nil _ (Text.pieces_ne_nil '/' front)

lemma filterMap_pieces_nil : (Text.pieces '/' []).filterMap Path.componentOf? = [] := rfl

lemma componentsOf_append (front rest : List Char) : Path.componentsOf (front ++ '/' :: rest) =
    Path.componentsOf (front ++ ['/']) ++ (Text.pieces '/' rest).filterMap Path.componentOf? := by
  have hhead : (front ++ '/' :: rest).head? = (front ++ ['/']).head? := by cases front <;> rfl
  unfold Path.componentsOf
  simp only [hhead, pieces_append_separator, head?_pieces_append, List.filterMap_append,
    filterMap_pieces_nil, List.append_nil, List.append_assoc]

lemma componentsOf_slash (h : front ≠ []) :
    Path.componentsOf (front ++ ['/']) = Path.componentsOf front := by
  have hhead : (front ++ ['/']).head? = front.head? := List.head?_append_of_ne_nil front h
  unfold Path.componentsOf
  simp only [hhead, pieces_append_separator, head?_pieces_append, List.filterMap_append,
    filterMap_pieces_nil, List.append_nil]

theorem components_respelled {path path' : Path} (h : Respelled path path') :
    path'.components = path.components := by
  unfold Path.components
  cases h with
  | doubled front rest =>
    have hpieces : Text.pieces '/' ('/' :: rest.toList) = [] :: Text.pieces '/' rest.toList := rfl
    simp only [String.toList_append, List.append_assoc]
    change Path.componentsOf (front.toList ++ '/' :: '/' :: rest.toList) =
      Path.componentsOf (front.toList ++ '/' :: rest.toList)
    rw [componentsOf_append, hpieces, componentsOf_append front.toList rest.toList]
    rfl
  | dotted front rest =>
    have hpieces : Text.pieces '/' ('.' :: '/' :: rest.toList) =
      ['.'] :: Text.pieces '/' rest.toList := rfl
    simp only [String.toList_append, List.append_assoc]
    change Path.componentsOf (front.toList ++ '/' :: '.' :: '/' :: rest.toList) =
      Path.componentsOf (front.toList ++ '/' :: rest.toList)
    rw [componentsOf_append, hpieces, componentsOf_append front.toList rest.toList]
    rfl
  | ended path nonempty =>
    rw [String.toList_append]
    exact componentsOf_slash fun hnil => nonempty (String.toList_eq_nil_iff.mp hnil)

lemma IsComponent.head? (h : IsComponent name) : name.toList.head? ≠ some '/' := fun hslash =>
  h.slashless (List.mem_of_mem_head? hslash)

lemma IsComponent.components (h : IsComponent name) :
    Path.componentsOf name.toList = [.normal name] := by
  have hpieces : Text.pieces '/' name.toList = [name.toList] := pieces_eq_singleton h.slashless
  have hdot : name.toList ≠ ['.'] := by
    intro hdot
    have hnamed := h.named
    rw [hdot] at hnamed
    cases hnamed
  unfold Path.componentsOf
  simp [hpieces, h.head?, hdot, h.named]

theorem components_join (h : IsComponent name) (path : Path) :
    (path.join ⟨name⟩).components = path.components ++ [.normal name] := by
  have hrest : (Text.pieces '/' name.toList).filterMap Path.componentOf? = [.normal name] := by
    rw [pieces_eq_singleton h.slashless, List.filterMap_cons, h.named]
    rfl
  rcases join_cases path h.head? with ⟨hempty, hjoin⟩ | ⟨front, hpath, hjoin⟩
  · rw [hjoin, Path.components, h.components, Path.components, hempty]
    rfl
  · have hfront : Path.componentsOf (front.toList ++ ['/']) = path.components := by
      rcases hpath with hpath | ⟨hpath, hne⟩
      · rw [Path.components, hpath, String.toList_append]
        rfl
      · rw [Path.components, hpath]
        exact componentsOf_slash fun hnil => hne (String.toList_eq_nil_iff.mp hnil)
    have htext : (front ++ "/" ++ name).toList = front.toList ++ '/' :: name.toList := by simp
    rw [hjoin, Path.components, htext, componentsOf_append, hfront, hrest]

/-- The names among the components of a path stand for themselves. -/
lemma isComponent_of_mem {path : Path} (h : Component.normal name ∈ path.components) :
    IsComponent name := by
  have hread : ∃ piece ∈ Text.pieces '/' path.text.toList,
      Path.componentOf? piece = some (.normal name) := by
    unfold Path.components Path.componentsOf at h
    rw [List.mem_append] at h
    rcases h with h | h
    · split at h
      · simp at h
      · split at h <;> simp at h
    · exact List.mem_filterMap.mp h
  obtain ⟨piece, hpiece, hcomponent⟩ := hread
  have hname : name.toList = piece := by
    unfold Path.componentOf? at hcomponent
    split at hcomponent
    · cases hcomponent
    · split at hcomponent
      · cases hcomponent
      · rw [← Component.normal.inj (Option.some.inj hcomponent), String.toList_ofList]
  exact ⟨hname ▸ separator_notMem_of_mem_pieces hpiece, hname ▸ hcomponent⟩

end Components

end SqlMigrations.Proofs
