import SqlMigrations.Migration.Json
import SqlMigrations.Proofs.JsonWriting

/-!
# Migrations as JSON texts

A migration is read from exactly those texts that describe it by the grammar of JSON: an array of
its three values in order, or an object with each of the three keys once, in any order, and with any
other keys. Its own compact text is one of them.
-/

namespace SqlMigrations.Proofs

open Json (valuesOf)
open Migration (ofJson? ofValues? parseJson?)

/-- The keys of a migration. -/
def migrationKeys : List String := ["version", "description", "filename"]

/-- The three fields of a migration. -/
def ownFields (m : Migration) : List (Option String × Json) :=
  [(some "version", .natural m.version.toNat), (some "description", .string (some m.description)),
    (some "filename", .string (some m.filename))]

/-- The values that describe a migration: its three values in order, or an object of its three
fields and others in any order. -/
inductive DescribesMigration (m : Migration) : Json → Prop
  | array : DescribesMigration m (.array ((ownFields m).map Prod.snd))
  | object {fields others : List (Option String × Json)}
      (shuffled : fields.Perm (ownFields m ++ others))
      (unknown : ∀ field ∈ others, ∃ key ∉ migrationKeys, field.1 = some key) :
      DescribesMigration m (.object fields)

section Values

variable {v version description filename : Json} {m : Migration} {key : String}
  {fields others : List (Option String × Json)}

lemma uint64?_eq_some {n : UInt64} : v.uint64? = some n ↔ v = .natural n.toNat := by
  constructor
  · intro h
    unfold Json.uint64? at h
    split at h
    · split at h
      · rename_i k hk
        rw [← Option.some.inj h, UInt64.toNat_ofNat_of_lt' hk]
      · cases h
    · cases h
  · rintro rfl
    simp [Json.uint64?, n.toNat_lt]

lemma ofValues?_eq_some : ofValues? version description filename = some m ↔
    [version, description, filename] = (ownFields m).map Prod.snd := by
  unfold ofValues? ownFields
  simp only [Option.bind_eq_bind, Option.bind_eq_some_iff, uint64?_eq_some, string?_eq_some,
    Option.pure_def, Option.some.injEq, List.map_cons, List.map_nil, List.cons.injEq, and_true]
  constructor
  · rintro ⟨a, rfl, b, rfl, c, rfl, rfl⟩
    exact ⟨rfl, rfl, rfl⟩
  · rintro ⟨rfl, rfl, rfl⟩
    exact ⟨_, rfl, _, rfl, _, rfl, rfl⟩

lemma valuesOf_eq_map : valuesOf key fields =
    (fields.filter fun field => field.1 = some key).map Prod.snd := by
  induction fields with
  | nil => rfl
  | cons field fields ih =>
    unfold valuesOf at ih ⊢
    rw [List.filterMap_cons, List.filter_cons, ih]
    by_cases h : field.1 = some key <;> simp [h]

lemma length_valuesOf :
    (valuesOf key fields).length = (fields.map Prod.fst).count (some key) := by
  rw [valuesOf_eq_map, List.length_map, List.count, List.countP_map, ← List.countP_eq_length_filter]
  refine List.countP_congr fun field _ => ?_
  simp [Function.comp]

lemma filter_of_valuesOf (h : valuesOf key fields = [v]) :
    (fields.filter fun field => field.1 = some key) = [(some key, v)] := by
  rw [valuesOf_eq_map, List.map_eq_singleton_iff] at h
  obtain ⟨field, hfield, rfl⟩ := h
  have hmem : field ∈ fields.filter fun field => field.1 = some key :=
    hfield ▸ List.mem_cons_self
  have hkey : field.1 = some key := by simpa using (List.mem_filter.mp hmem).2
  rw [hfield, ← hkey]

/-- Fields sorted out by some keys, with all others behind. -/
lemma perm_sortedOut {ks : List String} (hks : ks.Nodup) :
    fields.Perm ((ks.flatMap fun key => fields.filter fun field => field.1 = some key) ++
      fields.filter fun field => ∀ key ∈ ks, field.1 ≠ some key) := by
  induction ks with
  | nil =>
    have hall : (fields.filter fun field => ∀ key ∈ ([] : List String), field.1 ≠ some key) =
        fields := List.filter_eq_self.mpr (by simp)
    rw [hall, List.flatMap_nil, List.nil_append]
  | cons k ks ih =>
    obtain ⟨hnot, hrest⟩ := List.nodup_cons.mp hks
    have hsplit := List.filter_append_perm (fun field => decide (field.1 = some k))
      (fields.filter fun field => ∀ key ∈ ks, field.1 ≠ some key)
    have hown : ((fields.filter fun field => ∀ key ∈ ks, field.1 ≠ some key).filter
        fun field => field.1 = some k) = fields.filter fun field => field.1 = some k := by
      rw [List.filter_filter]
      refine List.filter_congr fun field _ => ?_
      by_cases hk : field.1 = some k
      · have hother : ∀ key ∈ ks, some k ≠ some key :=
          fun key hkey heq => hnot (Option.some.inj heq ▸ hkey)
        simpa [hk] using hother
      · simp [hk]
    have hothers : ((fields.filter fun field => ∀ key ∈ ks, field.1 ≠ some key).filter
        fun field => !decide (field.1 = some k)) =
        fields.filter fun field => ∀ key ∈ k :: ks, field.1 ≠ some key := by
      rw [List.filter_filter]
      refine List.filter_congr fun field _ => ?_
      simp
    rw [hown, hothers] at hsplit
    rw [List.flatMap_cons, List.append_assoc]
    exact (ih hrest).trans ((hsplit.symm.append_left _).trans (List.perm_append_comm_assoc _ _ _))

lemma valuesOf_described (h : fields.Perm (ownFields m ++ others))
    (hothers : ∀ field ∈ others, ∃ key ∉ migrationKeys, field.1 = some key)
    (hkey : key ∈ migrationKeys) (hvalue : valuesOf key (ownFields m) = [v]) :
    valuesOf key fields = [v] := by
  have hnone : valuesOf key others = [] := by
    rw [valuesOf_eq_map, List.map_eq_nil_iff, List.filter_eq_nil_iff]
    intro field hfield
    obtain ⟨other, hother, hfst⟩ := hothers field hfield
    have hne : other ≠ key := fun heq => hother (heq ▸ hkey)
    simp [hfst, hne]
  have hperm : (valuesOf key fields).Perm (valuesOf key (ownFields m ++ others)) :=
    h.filterMap _
  unfold valuesOf at hperm hvalue hnone ⊢
  rw [List.filterMap_append, hvalue, hnone] at hperm
  exact List.perm_singleton.mp hperm

/-- The fields of an object from which a migration is read. -/
lemma perm_ownFields (hvalues : ofValues? version description filename = some m)
    (hversion : valuesOf "version" fields = [version])
    (hdescription : valuesOf "description" fields = [description])
    (hfilename : valuesOf "filename" fields = [filename]) :
    fields.Perm (ownFields m ++
      fields.filter fun field => ∀ key ∈ migrationKeys, field.1 ≠ some key) := by
  have hown := ofValues?_eq_some.mp hvalues
  simp only [ownFields, List.map_cons, List.map_nil, List.cons.injEq, and_true] at hown
  have hsorted : fields.Perm ((["version", "description", "filename"].flatMap fun key =>
      fields.filter fun field => field.1 = some key) ++
        fields.filter fun field => ∀ key ∈ migrationKeys, field.1 ≠ some key) :=
    perm_sortedOut (by decide)
  simp only [List.flatMap_cons, List.flatMap_nil, filter_of_valuesOf hversion,
    filter_of_valuesOf hdescription, filter_of_valuesOf hfilename, hown.1, hown.2.1, hown.2.2]
    at hsorted
  exact hsorted

lemma ofJson?_eq_some : ofJson? v = some m ↔ DescribesMigration m v := by
  constructor
  · fun_cases ofJson? v with
    | case1 fields hkeys version description filename hfilename hdescription hversion =>
      intro h
      refine .object (perm_ownFields h hversion hdescription hfilename) fun field hfield => ?_
      obtain ⟨hmem, hunknown⟩ := List.mem_filter.mp hfield
      obtain ⟨key, hkey⟩ := Option.isSome_iff_exists.mp (List.all_eq_true.mp hkeys field hmem)
      exact ⟨key, fun hknown => of_decide_eq_true hunknown key hknown hkey, hkey⟩
    | case4 version description filename =>
      intro h
      exact ofValues?_eq_some.mp h ▸ .array
    | case2 | case3 | case5 => exact nofun
  · intro h
    cases h with
    | array => exact ofValues?_eq_some.mpr rfl
    | @object fields others hshuffled hunknown =>
      have hkeys : ∀ field ∈ fields, field.1.isSome := by
        intro field hfield
        rcases List.mem_append.mp (hshuffled.mem_iff.mp hfield) with hown | hother
        · have hall : ∀ field ∈ ownFields m, field.1.isSome := by simp [ownFields]
          exact hall field hown
        · obtain ⟨key, -, hkey⟩ := hunknown field hother
          rw [hkey, Option.isSome_some]
      rw [ofJson?, if_pos (List.all_eq_true.mpr hkeys),
        valuesOf_described hshuffled hunknown (by decide) rfl,
        valuesOf_described hshuffled hunknown (by decide) rfl,
        valuesOf_described hshuffled hunknown (by decide) rfl]
      exact ofValues?_eq_some.mpr rfl

lemma ofJson?_of_count_ne_one (hkey : key ∈ migrationKeys)
    (hcount : (fields.map Prod.fst).count (some key) ≠ 1) : ofJson? (.object fields) = none := by
  rw [← length_valuesOf] at hcount
  by_contra hsome
  obtain ⟨m, hm⟩ := Option.ne_none_iff_exists'.mp hsome
  cases ofJson?_eq_some.mp hm with
  | object hshuffled hunknown =>
    have hvalue : ∃ v, valuesOf key (ownFields m) = [v] := by
      simp only [migrationKeys, List.mem_cons, List.not_mem_nil, or_false] at hkey
      rcases hkey with rfl | rfl | rfl <;> exact ⟨_, rfl⟩
    obtain ⟨v, hv⟩ := hvalue
    rw [valuesOf_described hshuffled hunknown hkey hv] at hcount
    exact hcount rfl

/-- A migration survives JSON. Its own text is read back as the same migration; a text is read as a
migration if and only if it writes a value that describes it; and no migration is read from an
object in which one of the three keys is missing or repeated. -/
theorem migration_texts :
    (∀ m, parseJson? m.toJson = some m) ∧
    (∀ text m, parseJson? text = some m ↔ ∃ v, Writes v text ∧ DescribesMigration m v) ∧
    ∀ fields text, Writes (.object fields) text → ∀ key ∈ migrationKeys,
      (fields.map Prod.fst).count (some key) ≠ 1 → parseJson? text = none := by
  have hparse : ∀ text m,
      parseJson? text = some m ↔ ∃ v, Writes v text ∧ DescribesMigration m v := by
    intro text m
    simp only [parseJson?, Option.bind_eq_some_iff, parse?_eq_some, ofJson?_eq_some]
  refine ⟨?_, hparse, ?_⟩
  · intro m
    have hown : DescribesMigration m (docValue m.doc) := by
      have hshuffled : (ownFields m).Perm (ownFields m ++ []) := by
        rw [List.append_nil]
      exact .object hshuffled (by simp)
    exact (hparse _ m).mpr ⟨_, writes_compact m.doc, hown⟩
  · intro fields text htext key hkey hcount
    rw [parseJson?, parse?_eq_some.mpr htext]
    exact ofJson?_of_count_ne_one hkey hcount

/-- A text in which a key is repeated with the same value. -/
def repeatedText : String :=
  "\x7b\"version\": 1, \"description\": \"d\", \"filename\": \"f\", \"version\": 1\x7d"

/-- The fields that it writes. -/
def repeatedFields : List (Option String × Json) :=
  [(some "version", .natural 1), (some "description", .string (some "d")),
    (some "filename", .string (some "f")), (some "version", .natural 1)]

/-- No migration is read where a key is repeated. -/
theorem migration_texts_repeated :
    (repeatedFields.map Prod.fst).count (some "version") = 2 ∧ parseJson? repeatedText = none := by
  have htext : Writes (.object repeatedFields) repeatedText := parse?_eq_some.mp rfl
  have hcount : (repeatedFields.map Prod.fst).count (some "version") = 2 := by decide
  have hkey : "version" ∈ migrationKeys := by decide
  exact ⟨hcount, migration_texts.2.2 _ _ htext _ hkey (by rw [hcount]; decide)⟩

/-- Escapes, other white space and an array in place of an object. -/
example : parseJson? "[18446744073709551615 ,\"\\u0061\\ud83d\\ude00\",\n\"\\/\"]" =
    some ⟨18446744073709551615, "a😀", "/"⟩ := by
  decide +kernel

end Values

end SqlMigrations.Proofs
