import SqlMigrations.Config.Json
import SqlMigrations.Proofs.JsonTexts
import SqlMigrations.Proofs.Lookups
import SqlMigrations.Proofs.Results

/-!
# Configurations as JSON texts

No key of a configuration is ignored: an object is read if and only if each of its keys is known,
stands once, and has a value of its kind. Each value that is given is then used, and each that is
absent has its default, in whatever order the keys come.
-/

namespace SqlMigrations.Proofs

open Config (databaseOfFields? databaseOfJson? field? keys namedFields? ofFields? ofJson? parseJson?
  positional? setTarget single? targetsOf targetsOfJson?)

/-- The values that name a database: an object with no key but one path at most, or an array of at
most that path. -/
inductive DatabaseValue : Json → Path → Prop
  | emptyObject : DatabaseValue (.object []) ⟨":memory:"⟩
  | object (path : String) :
      DatabaseValue (.object [(some "path", .string (some path))]) ⟨path⟩
  | emptyArray : DatabaseValue (.array []) ⟨":memory:"⟩
  | array (path : String) : DatabaseValue (.array [.string (some path)]) ⟨path⟩

/-- A field that names the database of a target. -/
def TargetField (field : Option String × Json) (target : String × Path) : Prop :=
  field.1 = some target.1 ∧ DatabaseValue field.2 target.2

/-- The values that give targets: objects with a database for each name. The names of the targets
are distinct, and of a repeated name the last database counts. -/
inductive TargetsValue : Json → List (String × Path) → Prop
  | object {entries : List (Option String × Json)} {named targets : List (String × Path)}
      (each : List.Forall₂ TargetField entries named)
      (distinct : (targets.map Prod.fst).Nodup)
      (last : ∀ name, targets.lookup name = named.reverse.lookup name) :
      TargetsValue (.object entries) targets

/-- What a setting comes to: a value of its key, or its default where the key is absent. -/
inductive Setting {α : Type} (key : String) (Reads : Json → α → Prop) (default : α)
    (fields : List (Option String × Json)) : α → Prop
  | given {v : Json} {value : α} (mem : (some key, v) ∈ fields) (reads : Reads v value) :
      Setting key Reads default fields value
  | absent (none : ∀ v, (some key, v) ∉ fields) : Setting key Reads default fields default

/-- The fields of an object from which a configuration is read. -/
structure AcceptedFields (fields : List (Option String × Json)) : Prop where
  known : ∀ field ∈ fields, ∃ key ∈ keys, field.1 = some key
  once : (fields.map Prod.fst).Nodup
  migrationsDir : ∀ v, (some "migrations_dir", v) ∈ fields → ∃ text, v = .string (some text)
  trackingTable : ∀ v, (some "tracking_table", v) ∈ fields → ∃ text, v = .string (some text)
  database : ∀ v, (some "database", v) ∈ fields → ∃ path, DatabaseValue v path
  targets : ∀ v, (some "targets", v) ∈ fields → ∃ entries, v = .object entries ∧
    ∀ entry ∈ entries, (∃ name, entry.1 = some name) ∧ ∃ path, DatabaseValue entry.2 path

/-- A configuration in which all fields are used, with defaults elsewhere. -/
structure UsesFields (Targets : Json → List (String × Path) → Prop)
    (fields : List (Option String × Json)) (c : Config) : Prop where
  migrationsDir : Setting "migrations_dir" (fun v text => v = .string (some text))
    "migrations" fields c.migrationsDir.text
  trackingTable : Setting "tracking_table" (fun v text => v = .string (some text))
    "schema_migrations" fields c.trackingTable
  database : Setting "database" DatabaseValue ⟨":memory:"⟩ fields c.database
  targets : Setting "targets" Targets [] fields c.targets

section Keys

variable {α : Type} {v : Json} {key : String} {named : List (String × Json)}
  {fields : List (Option String × Json)} {read : Json → Option α} {default value : α}

lemma namedFields?_eq_some :
    namedFields? fields = some named ↔ fields = named.map (Prod.map some id) := by
  unfold namedFields?
  rw [mapM_eq_some, ← List.forall₂_eq_eq_eq, List.forall₂_map_right_iff]
  refine iff_of_eq (congrArg (fun R => List.Forall₂ R fields named) ?_)
  funext field entry
  obtain ⟨name | name, v⟩ := field <;> simp [Prod.ext_iff]

lemma exists_namedFields? :
    (∃ named, namedFields? fields = some named) ↔
      ∀ field ∈ fields, ∃ name, field.1 = some name := by
  unfold namedFields?
  simp only [mapM_eq_some, exists_forall₂]
  refine forall₂_congr fun field _ => ?_
  obtain ⟨name | name, v⟩ := field <;> simp

lemma names_tagged : (named.map (Prod.map some id)).map Prod.fst =
    (named.map Prod.fst).map (some : String → Option String) := by
  rw [List.map_map, List.map_map]
  rfl

lemma mem_tagged : (some key, v) ∈ named.map (Prod.map some id) ↔ (key, v) ∈ named := by
  simp

lemma count_eq_length_filter :
    (named.map Prod.fst).count key = (named.filter fun field => field.1 == key).length := by
  rw [List.count, List.countP_map, List.countP_eq_length_filter]
  rfl

lemma lookup_eq_head?_filter :
    named.lookup key = (named.filter fun field => field.1 == key).head?.map Prod.snd := by
  induction named with
  | nil => rfl
  | cons field named ih =>
    obtain ⟨name, v⟩ := field
    rw [lookup_cons_ite, List.filter_cons]
    by_cases h : key = name
    · simp [h]
    · rw [if_neg h, if_neg (by simpa using Ne.symm h), ih]

/-- A key that is not repeated is looked up. -/
lemma single?_eq_ite : single? key named =
    if (named.map Prod.fst).count key ≤ 1 then some (named.lookup key) else none := by
  rw [count_eq_length_filter, lookup_eq_head?_filter]
  unfold single?
  generalize (named.filter fun field => field.1 == key) = found
  match found with
  | [] | [_] => rfl
  | _ :: _ :: _ => rw [if_neg (by simp)]

lemma lookup_eq_none_iff : named.lookup key = none ↔ ∀ v, (key, v) ∉ named := by
  rw [List.lookup_eq_none_iff]
  constructor
  · intro h v hmem
    simpa using h _ hmem
  · rintro h ⟨name, v⟩ hmem
    exact bne_iff_ne.mpr fun heq => h v (heq ▸ hmem)

lemma field?_eq_some (honce : (named.map Prod.fst).Nodup) :
    field? key read default named = some value ↔
      Setting key (fun v value => read v = some value) default (named.map (Prod.map some id))
        value := by
  unfold field?
  rw [single?_eq_ite, if_pos (List.nodup_iff_count_le_one.mp honce key)]
  constructor
  · intro h
    cases hlookup : named.lookup key with
    | none =>
      simp only [hlookup, Option.bind_eq_bind, Option.bind_some, Option.pure_def,
        Option.some.injEq] at h
      subst h
      refine .absent fun v hmem => ?_
      exact lookup_eq_none_iff.mp hlookup v (mem_tagged.mp hmem)
    | some v =>
      simp only [hlookup, Option.bind_eq_bind, Option.bind_some] at h
      exact .given (mem_tagged.mpr ((lookup_eq_some_iff_mem honce).mp hlookup)) h
  · intro h
    cases h with
    | given hmem hread =>
      rw [(lookup_eq_some_iff_mem honce).mpr (mem_tagged.mp hmem)]
      exact hread
    | absent hnone =>
      rw [lookup_eq_none_iff.mpr fun v hmem => hnone v (mem_tagged.mpr hmem)]
      rfl

lemma count_le_one_of_field? (h : field? key read default named = some value) :
    (named.map Prod.fst).count key ≤ 1 := by
  by_contra hcount
  rw [field?, single?_eq_ite, if_neg hcount] at h
  cases h

end Keys

section Values

variable {v : Json} {path : Path} {named : List (String × Json)} {targets : List (String × Path)}

lemma databaseOfFields?_eq_some : databaseOfFields? Json.string? named = some path ↔
    DatabaseValue (.object (named.map (Prod.map some id))) path := by
  constructor
  · intro h
    simp only [databaseOfFields?, Option.bind_eq_bind, Option.bind_eq_some_iff, Option.pure_def,
      Option.some.injEq, Option.guard_eq_some'] at h
    obtain ⟨-, hkeys, text, htext, rfl⟩ := h
    have hcount := count_le_one_of_field? htext
    match named with
    | [] =>
      obtain rfl : ":memory:" = text := Option.some.inj htext
      exact .emptyObject
    | [(name, v)] =>
      obtain rfl : name = "path" := by simpa using hkeys
      rw [string?_eq_some.mp htext]
      exact .object text
    | (name, _) :: (name', _) :: _ =>
      obtain ⟨rfl, rfl, -⟩ : name = "path" ∧ name' = "path" ∧ _ := by simpa using hkeys
      simp at hcount
  · intro h
    match named with
    | [] =>
      cases h
      rfl
    | [(name, v)] =>
      cases h
      rfl

lemma positional?_eq_some {names : List String} {items : List Json} :
    positional? names items = some named ↔
      items.length ≤ names.length ∧ names.zip items = named := by
  unfold positional?
  split_ifs with h <;> simp [h]

lemma databaseOfJson?_eq_some : databaseOfJson? v = some path ↔ DatabaseValue v path := by
  constructor
  · fun_cases databaseOfJson? v with
    | case1 fields =>
      intro h
      obtain ⟨named, hnamed, hread⟩ := Option.bind_eq_some_iff.mp h
      rw [namedFields?_eq_some.mp hnamed]
      exact databaseOfFields?_eq_some.mp hread
    | case2 items =>
      intro h
      obtain ⟨named, hnamed, hread⟩ := Option.bind_eq_some_iff.mp h
      obtain ⟨hlength, rfl⟩ := positional?_eq_some.mp hnamed
      match items with
      | [] =>
        cases databaseOfFields?_eq_some.mp hread
        exact .emptyArray
      | [item] =>
        cases databaseOfFields?_eq_some.mp hread
        exact .array _
    | case3 => exact nofun
  · rintro (_ | path | _ | path) <;> rfl

lemma lookup_setTarget {name other : String} :
    (setTarget targets name path).lookup other =
      if other = name then some path else targets.lookup other := by
  induction targets with
  | nil => rw [setTarget, lookup_cons_ite]
  | cons target targets ih =>
    obtain ⟨n, p⟩ := target
    rw [setTarget]
    by_cases hsame : n = name
    · rw [if_pos hsame, lookup_cons_ite, lookup_cons_ite, hsame]
      split_ifs <;> rfl
    · rw [if_neg hsame, lookup_cons_ite, lookup_cons_ite, ih]
      by_cases hother : other = n
      · rw [if_pos hother, if_neg (hother ▸ hsame), if_pos hother]
      · rw [if_neg hother, if_neg hother]

lemma names_setTarget {name : String} :
    (setTarget targets name path).map Prod.fst =
      if name ∈ targets.map Prod.fst then targets.map Prod.fst
      else targets.map Prod.fst ++ [name] := by
  induction targets with
  | nil => rfl
  | cons target targets ih =>
    obtain ⟨n, p⟩ := target
    rw [setTarget]
    by_cases hsame : n = name
    · simp [hsame]
    · rw [if_neg hsame, List.map_cons, ih, List.map_cons]
      simp only [List.mem_cons, Ne.symm hsame, false_or]
      split_ifs <;> rfl

lemma nodup_setTarget {name : String} (h : (targets.map Prod.fst).Nodup) :
    ((setTarget targets name path).map Prod.fst).Nodup := by
  rw [names_setTarget]
  split_ifs with hmem
  · exact h
  · rw [← List.concat_eq_append]
    exact h.concat hmem

/-- Databases set in turn, over targets that are already there. -/
lemma foldl_setTarget {named : List (String × Path)} {name : String} :
    (named.foldl (fun targets target => setTarget targets target.1 target.2) targets).lookup name =
      (named.reverse.lookup name).or (targets.lookup name) := by
  induction named generalizing targets with
  | nil => rfl
  | cons target named ih =>
    obtain ⟨n, p⟩ := target
    rw [List.foldl_cons, ih, lookup_setTarget, List.reverse_cons, List.lookup_append,
      Option.or_assoc, lookup_cons_ite]
    split_ifs <;> rfl

lemma nodup_foldl_setTarget {named : List (String × Path)} (h : (targets.map Prod.fst).Nodup) :
    ((named.foldl (fun targets target => setTarget targets target.1 target.2) targets).map
      Prod.fst).Nodup := by
  induction named generalizing targets with
  | nil => exact h
  | cons target named ih => exact ih (nodup_setTarget h)

/-- An entry of targets, read. -/
lemma namedDatabase_eq_some {entry : String × Json} {target : String × Path} :
    (databaseOfJson? entry.2).map (fun path => (entry.1, path)) = some target ↔
      entry.1 = target.1 ∧ DatabaseValue entry.2 target.2 := by
  rw [Option.map_eq_some_iff]
  constructor
  · rintro ⟨path, hpath, rfl⟩
    exact ⟨rfl, databaseOfJson?_eq_some.mp hpath⟩
  · rintro ⟨hname, hpath⟩
    exact ⟨target.2, databaseOfJson?_eq_some.mpr hpath, by rw [hname]⟩

lemma targetsOfJson?_eq_some : targetsOfJson? v = some targets ↔ ∃ entries named,
    v = .object entries ∧ List.Forall₂ TargetField entries named ∧ targets = targetsOf named := by
  constructor
  · fun_cases targetsOfJson? v with
    | case1 entries =>
      intro h
      simp only [Option.bind_eq_bind, Option.bind_eq_some_iff, Option.pure_def,
        Option.some.injEq, namedFields?_eq_some, mapM_eq_some, namedDatabase_eq_some] at h
      obtain ⟨pairs, rfl, named, heach, rfl⟩ := h
      refine ⟨_, named, rfl, List.forall₂_map_left_iff.mpr (heach.imp ?_), rfl⟩
      exact fun pair target h => ⟨congrArg some h.1, h.2⟩
    | case2 => exact nofun
  · rintro ⟨entries, named, rfl, heach, rfl⟩
    have hpairs : ∃ pairs : List (String × Json), entries = pairs.map (Prod.map some id) ∧
        List.Forall₂ (fun pair target => pair.1 = target.1 ∧ DatabaseValue pair.2 target.2)
          pairs named := by
      induction heach with
      | nil => exact ⟨[], rfl, .nil⟩
      | @cons entry target entries named hentry heach ih =>
        obtain ⟨pairs, rfl, hpairs⟩ := ih
        obtain ⟨name, v⟩ := entry
        obtain ⟨rfl, hv⟩ : name = some target.1 ∧ DatabaseValue v target.2 := hentry
        exact ⟨(target.1, v) :: pairs, rfl, .cons ⟨rfl, hv⟩ hpairs⟩
    obtain ⟨pairs, rfl, hpairs⟩ := hpairs
    simp only [targetsOfJson?, Option.bind_eq_bind, Option.bind_eq_some_iff, Option.pure_def,
      namedFields?_eq_some, mapM_eq_some, namedDatabase_eq_some]
    exact ⟨pairs, rfl, named, hpairs, rfl⟩

lemma targetsValue_of_targetsOfJson? (h : targetsOfJson? v = some targets) :
    TargetsValue v targets := by
  obtain ⟨entries, named, rfl, heach, rfl⟩ := targetsOfJson?_eq_some.mp h
  refine .object heach (nodup_foldl_setTarget List.nodup_nil) fun name => ?_
  unfold targetsOf
  rw [foldl_setTarget, List.lookup_nil, Option.or_none]

lemma exists_targetsOfJson? : (∃ targets, targetsOfJson? v = some targets) ↔
    ∃ entries, v = .object entries ∧
      ∀ entry ∈ entries, (∃ name, entry.1 = some name) ∧ ∃ path, DatabaseValue entry.2 path := by
  have heach {entries : List (Option String × Json)} :
      (∃ named, List.Forall₂ TargetField entries named) ↔
        ∀ entry ∈ entries, (∃ name, entry.1 = some name) ∧ ∃ path, DatabaseValue entry.2 path := by
    simp only [exists_forall₂, TargetField, Prod.exists, exists_and_left, exists_and_right]
  simp only [targetsOfJson?_eq_some, ← heach]
  constructor
  · rintro ⟨targets, entries, named, rfl, hentries, rfl⟩
    exact ⟨entries, rfl, named, hentries⟩
  · rintro ⟨entries, rfl, named, hentries⟩
    exact ⟨_, entries, named, rfl, hentries, rfl⟩

end Values

section Settings

variable {α : Type} {key : String} {Reads Reads' : Json → α → Prop} {default value : α}
  {fields fields' : List (Option String × Json)}

lemma Setting.imp (h : Setting key Reads default fields value)
    (himp : ∀ v value, Reads v value → Reads' v value) :
    Setting key Reads' default fields value := by
  cases h with
  | given hmem hreads => exact .given hmem (himp _ _ hreads)
  | absent hnone => exact .absent hnone

lemma Setting.perm (h : Setting key Reads default fields value) (hperm : fields.Perm fields') :
    Setting key Reads default fields' value := by
  cases h with
  | given hmem hreads => exact .given (hperm.mem_iff.mp hmem) hreads
  | absent hnone => exact .absent fun v hmem => hnone v (hperm.mem_iff.mpr hmem)

/-- A key that stands once at most has a setting if and only if what it has is read. -/
lemma exists_setting (honce : (fields.map Prod.fst).Nodup) :
    (∃ value, Setting key Reads default fields value) ↔
      ∀ v, (some key, v) ∈ fields → ∃ value, Reads v value := by
  constructor
  · rintro ⟨value, hvalue⟩ v hmem
    cases hvalue with
    | @given v' _ hmem' hreads =>
      have hsame : some v' = some v := by
        rw [← (lookup_eq_some_iff_mem honce).mpr hmem', (lookup_eq_some_iff_mem honce).mpr hmem]
      exact ⟨value, Option.some.inj hsame ▸ hreads⟩
    | absent hnone => exact (hnone v hmem).elim
  · intro h
    by_cases hgiven : ∃ v, (some key, v) ∈ fields
    · obtain ⟨v, hmem⟩ := hgiven
      obtain ⟨value, hreads⟩ := h v hmem
      exact ⟨value, .given hmem hreads⟩
    · exact ⟨default, .absent (not_exists.mp hgiven)⟩

end Settings

section Objects

variable {c : Config} {fields fields' : List (Option String × Json)} {items : List Json}
  {Targets Targets' : Json → List (String × Path) → Prop}

lemma UsesFields.imp (h : UsesFields Targets fields c)
    (himp : ∀ v targets, Targets v targets → Targets' v targets) : UsesFields Targets' fields c :=
  ⟨h.migrationsDir, h.trackingTable, h.database, h.targets.imp himp⟩

lemma UsesFields.perm (h : UsesFields Targets fields c) (hperm : fields.Perm fields') :
    UsesFields Targets fields' c :=
  ⟨h.migrationsDir.perm hperm, h.trackingTable.perm hperm, h.database.perm hperm,
    h.targets.perm hperm⟩

lemma ofFields?_eq_some {named : List (String × Json)} :
    ofFields? Json.string? databaseOfJson? targetsOfJson? named = some c ↔
      (∀ key ∈ named.map Prod.fst, key ∈ keys) ∧
      field? "migrations_dir" Json.string? "migrations" named = some c.migrationsDir.text ∧
      field? "tracking_table" Json.string? "schema_migrations" named = some c.trackingTable ∧
      field? "database" databaseOfJson? ⟨":memory:"⟩ named = some c.database ∧
      field? "targets" targetsOfJson? [] named = some c.targets := by
  simp only [ofFields?, Option.bind_eq_bind, Option.bind_eq_some_iff, Option.pure_def,
    Option.some.injEq, Option.guard_eq_some', List.all_eq_true, List.contains_iff_mem,
    List.forall_mem_map]
  constructor
  · rintro ⟨-, hknown, dir, hdir, table, htable, database, hdatabase, targets, htargets, rfl⟩
    exact ⟨hknown, hdir, htable, hdatabase, htargets⟩
  · rintro ⟨hknown, hdir, htable, hdatabase, htargets⟩
    exact ⟨(), hknown, _, hdir, _, htable, _, hdatabase, _, htargets, rfl⟩

/-- No key is repeated where fields are read: not one of the known keys, and there are no others. -/
lemma nodup_of_ofFields? {named : List (String × Json)}
    (h : ofFields? Json.string? databaseOfJson? targetsOfJson? named = some c) :
    (named.map Prod.fst).Nodup := by
  obtain ⟨hknown, hdir, htable, hdatabase, htargets⟩ := ofFields?_eq_some.mp h
  refine List.nodup_iff_count_le_one.mpr fun key => ?_
  by_cases hkey : key ∈ keys
  · simp only [keys, List.mem_cons, List.not_mem_nil, or_false] at hkey
    rcases hkey with rfl | rfl | rfl | rfl
    · exact count_le_one_of_field? hdir
    · exact count_le_one_of_field? htable
    · exact count_le_one_of_field? hdatabase
    · exact count_le_one_of_field? htargets
  · rw [List.count_eq_zero.mpr fun hmem => hkey (hknown key hmem)]
    exact Nat.zero_le 1

lemma usesFields_tagged {named : List (String × Json)} (honce : (named.map Prod.fst).Nodup)
    (hknown : ∀ key ∈ named.map Prod.fst, key ∈ keys) :
    UsesFields (fun v targets => targetsOfJson? v = some targets) (named.map (Prod.map some id)) c ↔
      ofFields? Json.string? databaseOfJson? targetsOfJson? named = some c := by
  rw [ofFields?_eq_some, field?_eq_some honce, field?_eq_some honce, field?_eq_some honce,
    field?_eq_some honce]
  simp only [string?_eq_some, databaseOfJson?_eq_some]
  exact ⟨fun h => ⟨hknown, h.migrationsDir, h.trackingTable, h.database, h.targets⟩,
    fun ⟨_, hdir, htable, hdatabase, htargets⟩ => ⟨hdir, htable, hdatabase, htargets⟩⟩

/-- An object is read if and only if its keys are known, none is repeated, and all are used. -/
lemma ofJson?_object_eq_some : ofJson? (.object fields) = some c ↔
    (∀ field ∈ fields, ∃ key ∈ keys, field.1 = some key) ∧ (fields.map Prod.fst).Nodup ∧
      UsesFields (fun v targets => targetsOfJson? v = some targets) fields c := by
  have htagged {named : List (String × Json)} :
      (∀ field ∈ named.map (Prod.map some id), ∃ key ∈ keys, field.1 = some key) ↔
        ∀ key ∈ named.map Prod.fst, key ∈ keys := by
    rw [List.forall_mem_map, List.forall_mem_map]
    exact forall₂_congr fun field _ => by simp
  have hnodup {named : List (String × Json)} :
      ((named.map (Prod.map (some : String → Option String) id)).map Prod.fst).Nodup ↔
        (named.map Prod.fst).Nodup := by
    rw [names_tagged, List.nodup_map_iff (Option.some_injective _)]
  constructor
  · intro h
    obtain ⟨named, hnamed, hread⟩ := Option.bind_eq_some_iff.mp h
    obtain rfl := namedFields?_eq_some.mp hnamed
    have honce := nodup_of_ofFields? hread
    have hknown := (ofFields?_eq_some.mp hread).1
    exact ⟨htagged.mpr hknown, hnodup.mpr honce, (usesFields_tagged honce hknown).mpr hread⟩
  · rintro ⟨hknown, honce, huses⟩
    obtain ⟨named, hnamed⟩ := exists_namedFields?.mpr fun field hfield =>
      (hknown field hfield).imp fun _ => And.right
    obtain rfl := namedFields?_eq_some.mp hnamed
    rw [ofJson?, hnamed, Option.bind_some]
    exact (usesFields_tagged (hnodup.mp honce) (htagged.mp hknown)).mp huses

lemma ofJson?_perm (hperm : fields.Perm fields') :
    ofJson? (.object fields') = ofJson? (.object fields) := by
  ext c
  rw [ofJson?_object_eq_some, ofJson?_object_eq_some, (hperm.map Prod.fst).nodup_iff]
  simp only [hperm.mem_iff]
  refine and_congr_right fun _ => and_congr_right fun _ => ?_
  exact ⟨fun h => h.perm hperm.symm, fun h => h.perm hperm⟩

lemma exists_ofJson?_object : (∃ c, ofJson? (.object fields) = some c) ↔ AcceptedFields fields := by
  simp only [ofJson?_object_eq_some]
  constructor
  · rintro ⟨c, hknown, honce, huses⟩
    exact ⟨hknown, honce, (exists_setting honce).mp ⟨_, huses.migrationsDir⟩,
      (exists_setting honce).mp ⟨_, huses.trackingTable⟩,
      (exists_setting honce).mp ⟨_, huses.database⟩,
      fun v hmem => exists_targetsOfJson?.mp ((exists_setting honce).mp ⟨_, huses.targets⟩ v hmem)⟩
  · rintro ⟨hknown, honce, hdir, htable, hdatabase, htargets⟩
    obtain ⟨dir, hdir⟩ := (exists_setting honce).mpr hdir
    obtain ⟨table, htable⟩ := (exists_setting honce).mpr htable
    obtain ⟨database, hdatabase⟩ := (exists_setting honce).mpr hdatabase
    obtain ⟨targets, htargets⟩ := (exists_setting honce).mpr fun v hmem =>
      exists_targetsOfJson?.mpr (htargets v hmem)
    exact ⟨⟨⟨dir⟩, table, database, targets⟩, hknown, honce, hdir, htable, hdatabase, htargets⟩

lemma ofJson?_array : ofJson? (.array items) =
    if items.length ≤ keys.length then ofJson? (.object ((keys.map some).zip items)) else none := by
  have harray : ofJson? (.array items) = (positional? keys items).bind
      (ofFields? Json.string? databaseOfJson? targetsOfJson?) := rfl
  rw [harray, positional?]
  split_ifs
  · rw [ofJson?, namedFields?_eq_some.mpr List.zip_map_left]
  · rfl

/-- No key of a configuration is ignored. A text of an object is read if and only if its keys are
known, none is repeated, and each has a value of its kind; then each value that is given is used,
and the others have their defaults. The order of the keys does not matter. A text of an array is
read as that of the object in which its items stand behind the keys in order. -/
theorem configuration_texts :
    (∀ fields text, Writes (.object fields) text →
      ((∃ c, parseJson? text = some c) ↔ AcceptedFields fields) ∧
      ∀ c, parseJson? text = some c → UsesFields TargetsValue fields c) ∧
    (∀ fields fields' text text', fields.Perm fields' → Writes (.object fields) text →
      Writes (.object fields') text' → parseJson? text' = parseJson? text) ∧
    ∀ items text, Writes (.array items) text →
      (items.length ≤ keys.length → ∀ text', Writes (.object ((keys.map some).zip items)) text' →
        parseJson? text = parseJson? text') ∧
      (keys.length < items.length → parseJson? text = none) := by
  have hparse {v : Json} {text : String} (h : Writes v text) : parseJson? text = ofJson? v := by
    rw [parseJson?, parse?_eq_some.mpr h, Option.bind_some]
  refine ⟨fun fields text htext => ⟨?_, fun c hc => ?_⟩, ?_, fun items text htext => ⟨?_, ?_⟩⟩
  · rw [hparse htext]
    exact exists_ofJson?_object
  · rw [hparse htext] at hc
    exact (ofJson?_object_eq_some.mp hc).2.2.imp fun _ _ => targetsValue_of_targetsOfJson?
  · intro fields fields' text text' hperm htext htext'
    rw [hparse htext, hparse htext', ofJson?_perm hperm]
  · intro hlength text' htext'
    rw [hparse htext, hparse htext', ofJson?_array, if_pos hlength]
  · intro hlength
    rw [hparse htext, ofJson?_array, if_neg (Nat.not_le.mpr hlength)]

/-- A text with the keys out of order, in whose targets a name is repeated in another spelling. -/
def shuffledText : String :=
  "\x7b\"targets\": \x7b\"x\": [], \"\\u0078\": [\"b.db\"]\x7d, \"migrations_dir\": \"m\"\x7d"

/-- The fields that it writes. -/
def shuffledFields : List (Option String × Json) :=
  [(some "targets", .object [(some "x", .array []),
    (some "x", .array [.string (some "b.db")])]), (some "migrations_dir", .string (some "m"))]

/-- The fields are accepted and used, with the last database of the repeated name. -/
theorem configuration_texts_shuffled : AcceptedFields shuffledFields ∧
    ∃ c, parseJson? shuffledText = some c ∧ UsesFields TargetsValue shuffledFields c ∧
      c.targets = [("x", ⟨"b.db"⟩)] := by
  have htext : Writes (.object shuffledFields) shuffledText := parse?_eq_some.mp rfl
  have hparse : parseJson? shuffledText =
      some ⟨⟨"m"⟩, "schema_migrations", ⟨":memory:"⟩, [("x", ⟨"b.db"⟩)]⟩ := by
    decide +kernel
  obtain ⟨haccepts, huses⟩ := configuration_texts.1 _ _ htext
  exact ⟨haccepts.mp ⟨_, hparse⟩, _, hparse, huses _ hparse, rfl⟩

/-- An array of all values, in whose targets a name is repeated. -/
example : parseJson? "[\"m\", \"t\", [\"a.db\"], \x7b\"x\": [], \"x\": [\"b.db\"]\x7d]" =
    some ⟨⟨"m"⟩, "t", ⟨"a.db"⟩, [("x", ⟨"b.db"⟩)]⟩ := by
  decide +kernel

end Objects

end SqlMigrations.Proofs
