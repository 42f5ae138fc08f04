import SqlMigrations.Proofs.DiscoveryResult
import SqlMigrations.Proofs.FileNameGrammar
import SqlMigrations.Proofs.JoinedNames

/-!
# The extension filter

Discovery keeps a file by the extension of its name, read as a path, and file names are read by
their ending. Without a slash the two differ for one name only: the bare ending is a hidden file
without an extension. It is no migration either, so the filter drops nothing that is read, and
nothing that it keeps lacks the ending.
-/

namespace SqlMigrations.Proofs

open Migration

section Names

variable {name : String}

/-- A name without a slash is one component, unless it is empty or stands for a directory. -/
lemma fileName?_of_slashless (h : '/' ∉ name.toList) (hnil : name.toList ≠ [])
    (hdot : name.toList ≠ ['.']) (hdots : name.toList ≠ ['.', '.']) :
    Path.fileName? ⟨name⟩ = some name := by
  have hname : IsComponent name := ⟨h, componentOf?_toList hnil hdot hdots⟩
  rw [Path.fileName?, Path.components, hname.components]
  rfl

/-- What follows the last dot is the extension if something stands before that dot. -/
lemma extensionOf?_eq_sql : Path.extensionOf? name = some "sql" ↔
    ∃ stem, stem ≠ [] ∧ name.toList = stem ++ ending := by
  unfold Path.extensionOf?
  constructor
  · intro h
    split at h
    · rename_i c before after hsplit
      obtain ⟨hname, -⟩ := splitLast?_eq_some.mp hsplit
      have hafter : after = ['s', 'q', 'l'] := by
        rw [← String.toList_ofList (l := after), Option.some.inj h]
        rfl
      exact ⟨c :: before, List.cons_ne_nil c before, by rw [hname, hafter]; rfl⟩
    · cases h
  · rintro ⟨stem, hstem, hname⟩
    obtain ⟨c, before, rfl⟩ := List.exists_cons_of_ne_nil hstem
    have hsplit : Text.splitLast? '.' name.toList = some (c :: before, ['s', 'q', 'l']) :=
      splitLast?_eq_some.mpr ⟨hname, by decide⟩
    rw [hsplit]

lemma exists_stem_iff : (∃ stem, stem ≠ [] ∧ name.toList = stem ++ ending) ↔
    (∃ stem, name = stem ++ ".sql") ∧ name ≠ ".sql" := by
  constructor
  · rintro ⟨stem, hstem, hname⟩
    refine ⟨⟨String.ofList stem, String.toList_inj.mp (by simpa [ending] using hname)⟩, ?_⟩
    rintro rfl
    exact hstem (List.self_eq_append_left.mp hname)
  · rintro ⟨⟨stem, rfl⟩, hne⟩
    refine ⟨stem.toList, fun hnil => hne ?_, String.toList_append⟩
    rw [String.toList_eq_nil_iff.mp hnil]
    rfl

lemma hasExtension_iff (h : '/' ∉ name.toList) :
    hasExtension name = true ↔ (∃ stem, name = stem ++ ".sql") ∧ name ≠ ".sql" := by
  rw [← exists_stem_iff, ← extensionOf?_eq_sql]
  unfold hasExtension Path.extension?
  rw [beq_iff_eq]
  by_cases hname : name.toList = [] ∨ name.toList = ['.'] ∨ name.toList = ['.', '.']
  · -- None of the three names has an extension in either way.
    rcases hname with hname | hname | hname <;>
      rw [← String.ofList_toList (s := name), hname] <;> decide
  · rw [not_or, not_or] at hname
    rw [fileName?_of_slashless h hname.1 hname.2.1 hname.2.2]
    rfl

lemma parseFilename_ne_invalidExtension {stem : String} (hname : name = stem ++ ".sql")
    (other : String) : parseFilename name ≠ .error (.invalidExtension other) := by
  intro h
  cases parseFilename_eq_error.mp h with
  | invalidExtension hunended => exact hunended stem hname

/-- A name that is read has a numeral before its ending, so it is not the bare ending. -/
lemma hasExtension_of_accepted (h : '/' ∉ name.toList) (haccepted : Accepted name) :
    hasExtension name = true := by
  obtain ⟨⟨version, description⟩, hparse⟩ := haccepted
  obtain ⟨token, -, -, rfl⟩ := parseFilename_eq_ok.mp hparse
  refine (hasExtension_iff h).mpr ⟨⟨token ++ "_" ++ description, rfl⟩, fun hbare => ?_⟩
  have hlength := congrArg (fun text : String => text.toList.length) hbare
  simp [filenameOf] at hlength
  omega

end Names

section Listings

variable {fs : FileSystem} {dir : Path} {entries : List DirEntry} {entry : DirEntry}

lemma mem_keptNames {name : String} : name ∈ keptNames entries ↔
    ∃ entry ∈ entries, isKept entry = true ∧ entry.name = name := by
  simp [keptNames, and_assoc]

lemma discover_ne_invalidExtension (hlist : fs.listDir dir = .ok entries)
    (hslashless : ∀ entry ∈ entries, '/' ∉ entry.name.toList) (name : String) :
    discover fs dir ≠ .error (.invalidFilename (.invalidExtension name)) := by
  intro h
  by_cases hdir : dir.isEmpty = true
  · unfold discover at h
    rw [if_pos hdir] at h
    cases h
  rw [discover_of_listed (by simpa using hdir) hlist, ofEntries_eq_invalidFilename] at h
  obtain ⟨before, kept, after, hnames, -, hrefused⟩ := h
  have hkept : kept ∈ keptNames entries := by rw [hnames]; simp
  obtain ⟨entry, hentry, hfilter, rfl⟩ := mem_keptNames.mp hkept
  have hextension : hasExtension entry.name = true := (Bool.and_eq_true_iff.mp hfilter).2
  obtain ⟨⟨stem, hname⟩, -⟩ := (hasExtension_iff (hslashless entry hentry)).mp hextension
  exact parseFilename_ne_invalidExtension hname name hrefused

lemma mem_of_discover {ms : List Migration} (hlist : fs.listDir dir = .ok entries)
    (hentry : entry ∈ entries) (hkept : isKept entry = true) {version : UInt64}
    {description : String} (hparse : parseFilename entry.name = .ok (version, description))
    (h : discover fs dir = .ok ms) : ⟨version, description, entry.name⟩ ∈ ms := by
  obtain ⟨-, entries', hlist', hms⟩ := discover_eq_ok.mp h
  rw [hlist] at hlist'
  obtain rfl := Except.ok.inj hlist'
  have hname : entry.name ∈ keptNames entries := mem_keptNames.mpr ⟨entry, hentry, hkept, rfl⟩
  obtain ⟨m, hm, hfilename⟩ := List.mem_map.mp (hms.filenames.mem_iff.mpr hname)
  have hsame : m = ⟨version, description, entry.name⟩ :=
    (hms.stated m hm).eq hparse hfilename
  exact hsame ▸ hm

end Listings

/-- The extension filter agrees with the grammar of file names on all names without a slash: it
keeps those that have the ending and are more than it. So no listing of such names is refused for a
missing ending, and each regular file whose name is read is kept and discovered. -/
theorem extension_filter_agrees :
    (∀ name, '/' ∉ name.toList →
      (hasExtension name = true ↔ (∃ stem, name = stem ++ ".sql") ∧ name ≠ ".sql") ∧
      (hasExtension name = true →
        ∀ other, parseFilename name ≠ .error (.invalidExtension other)) ∧
      ∀ stated, parseFilename name = .ok stated → hasExtension name = true) ∧
    ∀ (fs : FileSystem) dir entries, fs.listDir dir = .ok entries →
      (∀ entry ∈ entries, '/' ∉ entry.name.toList) →
      (∀ name, discover fs dir ≠ .error (.invalidFilename (.invalidExtension name))) ∧
      ∀ entry ∈ entries, entry.isFile = true → ∀ version description,
        parseFilename entry.name = .ok (version, description) → isKept entry = true ∧
          ∀ ms, discover fs dir = .ok ms → ⟨version, description, entry.name⟩ ∈ ms := by
  constructor
  · intro name hslashless
    refine ⟨hasExtension_iff hslashless, fun hextension => ?_, fun stated hparse => ?_⟩
    · obtain ⟨⟨stem, hname⟩, -⟩ := (hasExtension_iff hslashless).mp hextension
      exact parseFilename_ne_invalidExtension hname
    · exact hasExtension_of_accepted hslashless ⟨stated, hparse⟩
  · intro fs dir entries hlist hslashless
    refine ⟨discover_ne_invalidExtension hlist hslashless, ?_⟩
    intro entry hentry hfile version description hparse
    have hextension := hasExtension_of_accepted (hslashless entry hentry) ⟨_, hparse⟩
    have hkept : isKept entry = true := Bool.and_eq_true_iff.mpr ⟨hfile, hextension⟩
    exact ⟨hkept, fun ms hms => mem_of_discover hlist hentry hkept hparse hms⟩

/-- Past a slash the two part: the path ends in a hidden file, and the name is read nevertheless. -/
example : hasExtension "1_a/.sql" = false ∧ parseFilename "1_a/.sql" = .ok (1, "a/") := by
  decide +kernel

end SqlMigrations.Proofs
