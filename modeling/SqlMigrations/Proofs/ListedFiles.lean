import SqlMigrations.Proofs.DiskPlaces
import SqlMigrations.Proofs.RunLog

/-!
# Listed files on a disk

A listing says of each child of a directory whether it is a file, and a child is read later through
its name joined to the path of the directory. Both walk the same moves, through whatever links, so
what is listed as a file can be read, and nothing else can.
-/

namespace SqlMigrations.Proofs

open Disk (Item Move)

variable {σ : Type}

/-- A listing of what stands at a place, to which a path leads. -/
structure ListsPlace (d : Disk) (dir : Path) (place : Place) (listing : List DirEntry) : Prop where
  distinct : (listing.map DirEntry.name).Nodup
  complete : ∀ name, name ∈ listing.map DirEntry.name ↔
    ∃ item, (place ++ [utf8 name], item) ∈ d.items
  marked : ∀ entry ∈ listing, entry.isFile = true ↔
    ∃ bytes, d.readBytes (dir.join ⟨entry.name⟩) = .ok bytes
  readable : ∀ entry ∈ listing, ∀ bytes, d.readBytes (dir.join ⟨entry.name⟩) = .ok bytes ↔
    Admissible (dir.join ⟨entry.name⟩) ∧ ∃ k n file, k + n ≤ Disk.linkLimit ∧
      PathLeads d k dir place .directory ∧
        Leads d n place [.enter (utf8 entry.name)] file (.file bytes)

section Listings

variable {d : Disk} {dir : Path} {place : Place} {listing : List DirEntry} {name : String}

lemma WellPlaced.enterable (h : WellPlaced d) {name : FileName} {item : Item}
    (hmem : (place ++ [name], item) ∈ d.items) : Enterable name :=
  h.named _ hmem name (List.getLast?_concat)

/-- A name is read through the directory in which it stands. -/
lemma readBytes_join_eq_ok (hname : Enterable (utf8 name)) {bytes : ByteArray}
    (hdir : d.resolve dir = .ok (place, .directory)) :
    d.readBytes (dir.join ⟨name⟩) = .ok bytes ↔
      Admissible (dir.join ⟨name⟩) ∧ ∃ k n file, k + n ≤ Disk.linkLimit ∧
        PathLeads d k dir place .directory ∧
          Leads d n place [.enter (utf8 name)] file (.file bytes) := by
  obtain ⟨hadmissible, k₀, -, hplace⟩ := resolve_eq_ok.mp hdir
  simp only [readBytes_eq_ok, resolve_eq_ok, pathLeads_join hname hadmissible.nonempty]
  constructor
  · rintro ⟨file, hjoined, _, hlimit, k, n, mid, rfl, hmid, hfile⟩
    obtain ⟨rfl, -⟩ := Leads.unique hplace hmid
    exact ⟨hjoined, k, n, file, hlimit, hmid, hfile⟩
  · rintro ⟨hjoined, k, n, file, hlimit, hmid, hfile⟩
    exact ⟨file, hjoined, k + n, hlimit, k, n, place, rfl, hmid, hfile⟩

/-- What a path lists is what stands at the place that it leads to. -/
theorem listsPlace_of_listed (h : WellPlaced d) (hlist : d.listDir dir = .ok listing)
    (hdir : d.resolve dir = .ok (place, .directory)) : ListsPlace d dir place listing := by
  obtain ⟨place', hdir', rfl⟩ := listDir_eq_ok.mp hlist
  have hsame : place' = place := by
    rw [hdir] at hdir'
    simpa using hdir'.symm
  rw [hsame]
  have hnames : (((d.namesIn place).filterMap Disk.nameText?).map fun name =>
      (⟨name, d.isFile (dir.join ⟨name⟩)⟩ : DirEntry)).map DirEntry.name =
        (d.namesIn place).filterMap Disk.nameText? := by
    rw [List.map_map]
    exact List.map_id _
  refine ⟨?_, fun name => ?_, fun entry hentry => ?_, fun entry hentry bytes => ?_⟩
  · rw [hnames]
    exact textNames_nodup h.distinct place
  · rw [hnames]
    exact mem_textNames
  · obtain ⟨name, -, rfl⟩ := List.mem_map.mp hentry
    exact isFile_eq_true
  · obtain ⟨name, hname, rfl⟩ := List.mem_map.mp hentry
    obtain ⟨item, hmem⟩ := mem_textNames.mp hname
    exact readBytes_join_eq_ok (h.enterable hmem) hdir

end Listings

section Runs

variable {d : Disk} {dir : Path} {table : TableName} {bound : Option UInt64} {ms : List Migration}

lemma decode_eq_error {bytes : ByteArray} {fault : Utf8.Fault}
    (h : Utf8.decode bytes = .error fault) : ¬ bytes.IsValidUTF8 := by
  intro hvalid
  unfold Utf8.decode String.fromUTF8? at h
  rw [dif_pos hvalid] at h
  cases h

/-- A run that fails to read stops at a migration that is discovered and cannot be read as text. -/
lemma RunTrace.unread {fs : FileSystem} {log : List (Exchange σ)} {filename : String}
    {cause : IoError} (h : RunTrace table fs dir bound log (.error (.read filename cause))) :
    ∃ ms, Migration.discover fs dir = .ok ms ∧ (∃ m ∈ ms, m.filename = filename) ∧
      fs.readText (dir.join ⟨filename⟩) = .error cause := by
  cases h with
  | @blocks ms _ _ _ _ _ _ discovered _ blocks =>
    obtain ⟨passed, m, rest, log₁, log₂, summary', hms, -, -, hblock⟩ := blocks.split_error
    have hmem : m ∈ ms := by
      have hwithin : m ∈ ms.filter (Engine.isWithin bound) := by simp [hms]
      exact List.mem_of_mem_filter hwithin
    cases hblock with
    | unread _ unread => exact ⟨ms, discovered, ⟨m, hmem, rfl⟩, unread⟩

lemma exists_entry_of_discover {fs : FileSystem} {m : Migration}
    (h : Migration.discover fs dir = .ok ms) (hm : m ∈ ms) :
    ∃ entries, fs.listDir dir = .ok entries ∧
      ∃ entry ∈ entries, entry.name = m.filename ∧ entry.isFile = true := by
  obtain ⟨-, entries, hlist, hms⟩ := discover_eq_ok.mp h
  have hname : m.filename ∈ keptNames entries :=
    hms.filenames.mem_iff.mp (List.mem_map.mpr ⟨m, hm, rfl⟩)
  obtain ⟨entry, hentry, hsame⟩ := List.mem_map.mp hname
  obtain ⟨hmem, hkept⟩ := List.mem_filter.mp hentry
  rw [Migration.isKept, Bool.and_eq_true] at hkept
  exact ⟨entries, hlist, entry, hmem, hsame, hkept.1⟩

/-- What a discovered migration is read as on a disk fails by its encoding only. -/
lemma badEncoding_of_discover {m : Migration} {cause : IoError}
    (h : Migration.discover d.fileSystem dir = .ok ms) (hm : m ∈ ms)
    (hread : d.fileSystem.readText (dir.join ⟨m.filename⟩) = .error cause) :
    ∃ bytes fault, d.readBytes (dir.join ⟨m.filename⟩) = .ok bytes ∧ cause = .badEncoding fault ∧
      ¬ bytes.IsValidUTF8 := by
  obtain ⟨entries, hlist, entry, hentry, hname, hfile⟩ := exists_entry_of_discover h hm
  obtain ⟨place, -, rfl⟩ := listDir_eq_ok.mp hlist
  obtain ⟨name, -, rfl⟩ := List.mem_map.mp hentry
  obtain rfl : name = m.filename := hname
  obtain ⟨bytes, hbytes⟩ := isFile_eq_true.mp hfile
  have hdecode : (Utf8.decode bytes).mapError IoError.badEncoding = .error cause := by
    have hsystem : d.fileSystem.readBytes (dir.join ⟨m.filename⟩) = .ok bytes := hbytes
    unfold FileSystem.readText at hread
    rw [hsystem] at hread
    exact hread
  obtain ⟨fault, hfault, rfl⟩ := error_eq_mapError.mp hdecode.symm
  exact ⟨bytes, fault, hbytes, rfl, decode_eq_error hfault⟩

end Runs

/-- A directory on a disk lists when a path leads to it, whatever its children are. It lists those
whose names are text, each once, and marks those that can be read under its path; reading one of
them gives the content of the file to which its name leads from the directory. So a run over a disk
fails to read only what is not text. -/
theorem listed_files_readable {d : Disk} (h : WellPlaced d) (dir : Path) :
    ((∃ listing, d.listDir dir = .ok listing) ↔
      ∃ place, d.resolve dir = .ok (place, .directory)) ∧
    (∀ listing place, d.listDir dir = .ok listing → d.resolve dir = .ok (place, .directory) →
      ListsPlace d dir place listing) ∧
    ∀ (σ : Type) (db : Database σ) (table : TableName) (bound : Option UInt64) (s : σ)
      (filename : String) (cause : IoError),
      (observe db (ExceptT.run (Engine.run table d.fileSystem dir bound)) s).value =
        .error (.read filename cause) →
      ∃ bytes fault, d.readBytes (dir.join ⟨filename⟩) = .ok bytes ∧
        cause = .badEncoding fault ∧ ¬ bytes.IsValidUTF8 := by
  refine ⟨?_, fun listing place => listsPlace_of_listed h, ?_⟩
  · constructor
    · rintro ⟨listing, hlist⟩
      obtain ⟨place, hdir, -⟩ := listDir_eq_ok.mp hlist
      exact ⟨place, hdir⟩
    · rintro ⟨place, hdir⟩
      exact ⟨_, listDir_eq_ok.mpr ⟨place, hdir, rfl⟩⟩
  · intro σ db table bound s filename cause hvalue
    have htrace := run_yields (observe_yields db (ExceptT.run
      (Engine.run table d.fileSystem dir bound)) s)
    rw [hvalue] at htrace
    obtain ⟨ms, hms, ⟨m, hm, rfl⟩, hread⟩ := htrace.unread
    exact badEncoding_of_discover hms hm hread

/-- A directory behind a link: in it are a file, two links of a chain to it, a link that leads to
nothing, one that leads to itself, one that leads back to the directory, a body that is not text and
a name that is not text. -/
def linkedDisk : Disk where
  items :=
    [([utf8 "real"], .directory), ([utf8 "m"], .link "real".toUTF8),
      ([utf8 "real", utf8 "1_a.sql"], .file "SELECT 1;".toUTF8),
      ([utf8 "real", utf8 "2_b.sql"], .link "hop".toUTF8),
      ([utf8 "real", utf8 "hop"], .link "./1_a.sql".toUTF8),
      ([utf8 "real", utf8 "3_c.sql"], .link "nowhere".toUTF8),
      ([utf8 "real", utf8 "4_d.sql"], .link "4_d.sql".toUTF8),
      ([utf8 "real", utf8 "5_e.sql"], .link "../m".toUTF8),
      ([utf8 "real", utf8 "6_f.sql"], .file ⟨#[0xff]⟩),
      ([utf8 "real", [0xff]], .file "SELECT 2;".toUTF8)]
  cwd := []

/-- Only the file, the chain to it and the body that is not text are marked. -/
theorem listed_files_readable_linked : WellPlaced linkedDisk ∧
    linkedDisk.listDir ⟨"m/"⟩ = .ok [⟨"1_a.sql", true⟩, ⟨"2_b.sql", true⟩, ⟨"hop", true⟩,
      ⟨"3_c.sql", false⟩, ⟨"4_d.sql", false⟩, ⟨"5_e.sql", false⟩, ⟨"6_f.sql", true⟩] ∧
    (∃ bytes, linkedDisk.readBytes (Path.join ⟨"m/"⟩ ⟨"2_b.sql"⟩) = .ok bytes) ∧
    ¬ ∃ bytes, linkedDisk.readBytes (Path.join ⟨"m/"⟩ ⟨"5_e.sql"⟩) = .ok bytes := by
  have hplaced : WellPlaced linkedDisk := by decide +kernel
  have hlist : linkedDisk.listDir ⟨"m/"⟩ = .ok [⟨"1_a.sql", true⟩, ⟨"2_b.sql", true⟩,
      ⟨"hop", true⟩, ⟨"3_c.sql", false⟩, ⟨"4_d.sql", false⟩, ⟨"5_e.sql", false⟩,
      ⟨"6_f.sql", true⟩] := by
    decide +kernel
  obtain ⟨hlisted, hplace, -⟩ := listed_files_readable hplaced ⟨"m/"⟩
  obtain ⟨place, hdir⟩ := hlisted.mp ⟨_, hlist⟩
  have hmarked := (hplace _ place hlist hdir).marked
  refine ⟨hplaced, hlist, ?_, ?_⟩
  · exact (hmarked ⟨"2_b.sql", true⟩ (by decide)).mp rfl
  · intro hread
    cases (hmarked ⟨"5_e.sql", false⟩ (by decide)).mpr hread

end SqlMigrations.Proofs
