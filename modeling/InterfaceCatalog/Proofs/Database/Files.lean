import InterfaceCatalog.Proofs.Database.Permanence
import InterfaceCatalog.Proofs.Files.Listing
import InterfaceCatalog.Proofs.Files.Offers

namespace InterfaceCatalog

/-- What a scan of a directory comes upon. -/
def Disk.findings (disk : Disk) (directory : Path) : List Finding :=
  match disk.directory? directory with
  | none => []
  | some node => node.findings disk.barred directory

namespace Database

/-- What is offered when a file is named. A path that would hide a known file is not. -/
def nameOffers (db : Database) (disk : Disk) (nameOrPath : String) : List ScannedFile :=
  let path := Path.ofString nameOrPath
  if disk.isFile path ∧ db.files.shadowing? disk path = none then
    (db.settings.fileOf? (.file path)).toList
  else []

/-- A database between two requests, with all files that were offered to its table before. -/
inductive Offered : Database → List ScannedFile → Prop
  | new (settings : Settings) (reader : SourceReader) : Offered { settings, reader } []
  | scan {db : Database} {past : List ScannedFile} (disk : Disk) (directory : Path)
      (h : Offered db past) :
      Offered (db.scan disk directory).2 (past ++ db.settings.offers (disk.findings directory))
  | scanSystem {db : Database} {past : List ScannedFile} (disk : Disk) (h : Offered db past) :
      Offered (db.scanSystem disk).2
        (past ++ db.settings.offers (db.settings.systemDirectories.flatMap disk.findings))
  | parse {db : Database} {past : List ScannedFile} (disk : Disk) (nameOrPath : String)
      (h : Offered db past) :
      Offered (db.parse disk nameOrPath).2 (past ++ db.nameOffers disk nameOrPath)
  | parseAll {db : Database} {past : List ScannedFile} (disk : Disk) (kind : FileKind)
      (h : Offered db past) :
      Offered (db.parseAll disk kind).2 past

variable {db db' : Database} {disk : Disk} {directory : Path} {nameOrPath name : String}
    {past : List ScannedFile}

theorem Reachable.exists_offered (h : db.Reachable) : ∃ past, db.Offered past := by
  induction h with
  | new settings reader => exact ⟨_, .new settings reader⟩
  | scan disk directory _ ih =>
    obtain ⟨_, hpast⟩ := ih
    exact ⟨_, .scan disk directory hpast⟩
  | scanSystem disk _ ih =>
    obtain ⟨_, hpast⟩ := ih
    exact ⟨_, .scanSystem disk hpast⟩
  | parse disk nameOrPath _ ih =>
    obtain ⟨_, hpast⟩ := ih
    exact ⟨_, .parse disk nameOrPath hpast⟩
  | parseAll disk kind _ ih =>
    obtain ⟨_, hpast⟩ := ih
    exact ⟨_, .parseAll disk kind hpast⟩

theorem scan_eq (db : Database) (disk : Disk) (directory : Path) : db.scan disk directory =
    (if (disk.directory? directory).isSome
        then (disk.findings directory).findSome? db.settings.fault?
        else some (.notADirectory directory),
      { db with files := db.files.offerAll (db.settings.offers (disk.findings directory)) }) := by
  unfold scan Disk.findings
  cases disk.directory? directory with
  | none => rfl
  | some node =>
    dsimp only
    rw [FileTable.registerAll_eq]
    rfl

theorem scanExisting_eq (disk : Disk) (db : Database) (directories : List Path) :
    (scanExisting disk db directories).2 =
      { db with
        files := db.files.offerAll (db.settings.offers (directories.flatMap disk.findings)) } := by
  induction directories generalizing db with
  | nil => rfl
  | cons directory directories ih =>
    rw [scanExisting, List.flatMap_cons]
    split
    · next hdirectory =>
      rw [scan_eq, if_pos hdirectory]
      cases hfault : (disk.findings directory).findSome? db.settings.fault? with
      | some e => rw [Settings.offers_append_of_fault hfault]
      | none =>
        rw [Settings.offers_append hfault, FileTable.offerAll_append]
        exact ih _
    · next hdirectory =>
      have hnothing : disk.findings directory = [] := by
        rw [Disk.findings, Option.not_isSome_iff_eq_none.mp hdirectory]
      rw [hnothing, List.nil_append]
      exact ih _

theorem nameFile_eq (db : Database) (disk : Disk) (nameOrPath : String) :
    (db.nameFile disk nameOrPath).2 =
      { db with files := db.files.offerAll (db.nameOffers disk nameOrPath) } := by
  unfold nameFile nameOffers
  dsimp only
  by_cases hpath : disk.isFile (.ofString nameOrPath)
  · cases hshadow : db.files.shadowing? disk (.ofString nameOrPath) with
    | some known => simp [hpath, FileTable.offerAll]
    | none =>
      rw [if_pos hpath, if_pos ⟨hpath, rfl⟩, FileTable.register_eq]
      cases hfault : db.settings.fault? (.file (.ofString nameOrPath)) with
      | some e =>
        rw [Settings.fileOf?_of_fault hfault]
        rfl
      | none =>
        dsimp only
        cases (db.settings.fileOf? (.file (.ofString nameOrPath))).bind fun file =>
          (db.files.offer file).pool.get? file.name <;> rfl
  · have hoffers : ¬ (disk.isFile (.ofString nameOrPath) ∧
        db.files.shadowing? disk (.ofString nameOrPath) = none) := fun h => hpath h.1
    rw [if_neg hpath, if_neg hoffers]
    split <;> rfl

theorem parse_files (db : Database) (disk : Disk) (nameOrPath : String) :
    (db.parse disk nameOrPath).2.files = db.files.offerAll (db.nameOffers disk nameOrPath) :=
  (congrArg Sources.files (parse_sources db disk nameOrPath)).trans
    (congrArg Database.files (nameFile_eq db disk nameOrPath))

theorem parseAll_files (db : Database) (disk : Disk) (kind : FileKind) :
    (db.parseAll disk kind).2.files = db.files :=
  loadEach_induction (P := fun db' => db'.files = db.files)
    (fun name h => (load_files _ disk name).trans h) rfl

/-- The table has the first of the files of each name that were offered. -/
theorem Offered.files_eq (h : db.Offered past) : db.files = .ofFiles (firsts past) := by
  induction h with
  | new settings reader => rfl
  | @scan db past disk directory _ ih => rw [scan_eq, ih, FileTable.offerAll_firsts]
  | @scanSystem db past disk _ ih =>
    rw [Database.scanSystem, scanExisting_eq, ih, FileTable.offerAll_firsts]
  | @parse db past disk nameOrPath _ ih => rw [parse_files, ih, FileTable.offerAll_firsts]
  | @parseAll db past disk kind _ ih => rw [parseAll_files, ih]

theorem Later.settings_eq (h : Later db db') : db'.settings = db.settings := by
  induction h with
  | refl => rfl
  | tail _ hr ih =>
    refine hr.induction (P := fun db' => db'.settings = db.settings) (fun _ h => h)
      (fun {db} disk name h => ?_) ih
    exact (congrArg Sources.settings (load_sources db disk name disk)).trans h

theorem Later.files_extend (h : Later db db') : db.files.files <+: db'.files.files := by
  induction h with
  | refl => exact List.prefix_rfl
  | tail _ hr ih =>
    refine hr.induction (P := fun db' => db.files.files <+: db'.files.files)
      (fun {db' path _ _} hregister h => ?_)
      (fun {db'} disk name h => (load_files db' disk name).symm ▸ h) ih
    rw [FileTable.register_eq] at hregister
    split at hregister
    · cases hregister
    · cases hregister
      exact h.trans (FileTable.offerAll_extends _ _)

/-- A scan of what was scanned before finds all its files known. -/
theorem Later.scan_again {disk' : Disk} (h : Later (db.scan disk directory).2 db')
    (hdirectory : disk'.directory? directory = disk.directory? directory)
    (hbarred : disk'.barred = disk.barred) :
    db'.scan disk' directory = ((db.scan disk directory).1, db') := by
  have hsettings : db'.settings = db.settings := by
    rw [h.settings_eq, scan_eq]
  have hkeeps := FileTable.Keeps.of_extends h.files_extend
  rw [scan_eq, ← hsettings] at hkeeps
  have hfindings : disk'.findings directory = disk.findings directory := by
    rw [Disk.findings, hdirectory, hbarred, Disk.findings]
  have hknown : ∀ file ∈ db'.settings.offers (disk.findings directory),
      db'.files.contains file.name :=
    fun file hfile => hkeeps.contains (FileTable.contains_of_mem_offerAll hfile)
  rw [scan_eq, scan_eq, hdirectory, hfindings, FileTable.offerAll_of_contains hknown, hsettings,
    ← hsettings]

theorem nameFile_of_isFile (hpath : disk.isFile (.ofString nameOrPath))
    (h : db.nameFile disk nameOrPath = (.ok name, db')) : ∃ file, db'.files.find? name = some file ∧
      fileName (.ofString nameOrPath) = .ok name ∧
      (file.path.same (.ofString nameOrPath) ∨ disk.sameFile file.path (.ofString nameOrPath)) := by
  unfold nameFile at h
  dsimp only at h
  rw [if_pos hpath] at h
  cases hshadow : db.files.shadowing? disk (.ofString nameOrPath) with
  | some known => simp [hshadow] at h
  | none =>
    rw [hshadow] at h
    dsimp only at h
    split at h
    · cases h
    · cases h
    next files hregister =>
      cases h
      obtain ⟨hname, file, hfile, hfrom⟩ := FileTable.register_find? hregister
      refine ⟨file, hfile, hname, ?_⟩
      rcases hfrom with hknown | hentered
      · exact FileTable.same_of_unshadowed hshadow hname hknown
      · exact .inl (decide_eq_true (congrArg Path.components hentered))

theorem parse_eq_ok (h : db.parse disk nameOrPath = (.ok name, db')) :
    ∃ named, db.nameFile disk nameOrPath = (.ok name, named) ∧ db'.files = named.files ∧
      name ∈ db'.catalog.parsed := by
  unfold parse at h
  split at h
  · cases h
  next found named hname =>
    have hfiles := load_files named disk found
    split at h
    · cases h
    next loaded hload =>
      split at h
      · next hparsed =>
        cases h
        rw [hload] at hfiles
        exact ⟨named, hname, hfiles, List.contains_iff_mem.mp hparsed⟩
      · cases h

/-- What a scan enters if it succeeds: the files below the directory, one after the other. -/
theorem registerAll_of_scan (h : db.scan disk directory = (none, db')) :
    ∃ node, disk.directory? directory = some node ∧ db' = { db with files := db'.files } ∧
      let found := node.listing.map fun route => Finding.file (directory.follow route)
      db.files.registerAll db.settings found = (none, db'.files) ∧
        db'.files = db.files.offerAll (found.filterMap db.settings.fileOf?) := by
  rw [scan_eq, Prod.mk.injEq] at h
  obtain ⟨hfault, rfl⟩ := h
  split at hfault
  · next hdirectory =>
    obtain ⟨node, hnode⟩ := Option.isSome_iff_exists.mp hdirectory
    have hfindings : disk.findings directory =
        node.listing.map fun route => Finding.file (directory.follow route) := by
      rw [Disk.findings, hnode] at hfault ⊢
      refine Node.findings_eq_map_listing node directory fun path fault hbarred => ?_
      have hnone := Settings.isNone_fault? hfault _ hbarred
      cases hnone
    rw [hfindings] at hfault ⊢
    refine ⟨node, hnode, rfl, ?_, ?_⟩
    · rw [FileTable.registerAll_eq, hfault]
    · rw [Settings.offers_of_faultless hfault]
  · cases hfault

/-- First come, first known. The table has the first of all files of a name that were ever offered.
What is known stays known by its path and kind, and in its place. A scan that succeeds enters the
files below the directory one by one, in the order of the names on the ways to them, and one of a
tree that is as it was changes nothing, however it ends. A file that is parsed by a path is the one
that is known by its name. -/
theorem Offered.first_come (h : db.Offered past) :
    db.files.Lists past ∧
    (∀ db', Later db db' → db.files.Keeps db'.files ∧ db.files.files <+: db'.files.files) ∧
    (∀ disk directory db', db.scan disk directory = (none, db') →
      ∃ node, disk.directory? directory = some node ∧
        (node.WellNamed → node.listing.Pairwise (· < ·) ∧
          ∀ route, route ∈ node.listing ↔ ∃ content, node.find? route = some (.file content)) ∧
        let found := node.listing.map fun route => Finding.file (directory.follow route)
        db.files.registerAll db.settings found = (none, db'.files) ∧
        db' = { db with files := db'.files } ∧
          db'.files.Lists (past ++ found.filterMap db.settings.fileOf?)) ∧
    (∀ disk directory disk' db', Later (db.scan disk directory).2 db' →
      disk'.directory? directory = disk.directory? directory → disk'.barred = disk.barred →
      db'.scan disk' directory = ((db.scan disk directory).1, db')) ∧
    ∀ disk nameOrPath name db', disk.isFile (.ofString nameOrPath) →
      db.parse disk nameOrPath = (.ok name, db') →
      name ∈ db'.catalog.parsed ∧ ∃ file, db'.files.find? name = some file ∧
        fileName (.ofString nameOrPath) = .ok name ∧
        (file.path.same (.ofString nameOrPath) ∨
          disk.sameFile file.path (.ofString nameOrPath)) := by
  refine ⟨h.files_eq ▸ FileTable.lists_ofFiles past, fun db' hlater => ?_,
    fun disk directory db' hscan => ?_,
    fun disk directory disk' db' hlater => hlater.scan_again,
    fun disk nameOrPath name db' hpath hparse => ?_⟩
  · exact ⟨.of_extends hlater.files_extend, hlater.files_extend⟩
  · obtain ⟨node, hnode, hrest, hregister, hfiles⟩ := registerAll_of_scan hscan
    refine ⟨node, hnode, fun hnamed => ⟨hnamed.pairwise_listing, fun route => hnamed.mem_listing⟩,
      hregister, hrest, ?_⟩
    rw [hfiles, h.files_eq, FileTable.offerAll_firsts]
    exact FileTable.lists_ofFiles _
  · obtain ⟨named, hname, hfiles, hparsed⟩ := parse_eq_ok hparse
    rw [hfiles]
    exact ⟨hparsed, nameFile_of_isFile hpath hname⟩

/-- Two directories have a file of one name. -/
def twinDisk : Disk where
  root := .directory [
    (encodeUtf8 "a", .directory [(encodeUtf8 "x.eo", .file [])]),
    (encodeUtf8 "b", .directory [(encodeUtf8 "x.eo", .file [])])]
  current := []

def twinDatabase : Database where
  settings := {}
  reader := cyclicReader
  files := {
    pool := ⟨["x.eo"]⟩
    files := [⟨"x.eo", .ofString "/a/x.eo", .interface⟩]
    interfaceNames := ["x.eo"] }

theorem twinDisk_findings : twinDisk.findings (.ofString "/") =
    [.file (.ofString "/a/x.eo"), .file (.ofString "/b/x.eo")] := by
  rw [Disk.findings, directory?_slash rfl]
  dsimp only
  rw [twinDisk, Node.findings_directory rfl, Node.byName,
    List.mergeSort_of_pairwise (by decide +kernel),
    List.flatMap_cons, List.flatMap_cons, List.flatMap_nil, Node.findings_directory rfl,
    Node.findings_directory rfl, Node.byName, List.mergeSort_singleton]
  decide +kernel

theorem scan_twins :
    scan { settings := {}, reader := cyclicReader } twinDisk (.ofString "/") =
      (none, twinDatabase) := by
  have hfiles : ({} : FileTable).registerAll {}
      [.file (.ofString "/a/x.eo"), .file (.ofString "/b/x.eo")] = (none, twinDatabase.files) := by
    decide +kernel
  rw [FileTable.registerAll_eq, Prod.mk.injEq] at hfiles
  rw [scan_eq, twinDisk_findings, directory?_slash rfl, if_pos Option.isSome_some]
  dsimp only
  rw [hfiles.1, hfiles.2]
  rfl

/-- The file of the first directory is the one that is known, and that of the second one
cannot be parsed. -/
theorem first_come_twins :
    twinDatabase.Offered [⟨"x.eo", .ofString "/a/x.eo", .interface⟩,
      ⟨"x.eo", .ofString "/b/x.eo", .interface⟩] ∧
      twinDatabase.files.find? "x.eo" = some ⟨"x.eo", .ofString "/a/x.eo", .interface⟩ ∧
      twinDatabase.scan twinDisk (.ofString "/") = (none, twinDatabase) ∧
      ∀ name db', twinDatabase.parse twinDisk "/b/x.eo" ≠ (.ok name, db') := by
  have hoffers : ({} : Settings).offers [.file (.ofString "/a/x.eo"), .file (.ofString "/b/x.eo")] =
      [⟨"x.eo", .ofString "/a/x.eo", .interface⟩, ⟨"x.eo", .ofString "/b/x.eo", .interface⟩] := by
      decide +kernel
  have hoffered := Offered.scan twinDisk (.ofString "/") (.new {} cyclicReader)
  rw [scan_twins, twinDisk_findings, List.nil_append, hoffers] at hoffered
  obtain ⟨hlists, hlater, -, -, hparse⟩ := hoffered.first_come
  obtain ⟨-, -, -, hagain, -⟩ := (Offered.new {} cyclicReader).first_come
  have hfirst : twinDatabase.files.find? "x.eo" = some ⟨"x.eo", .ofString "/a/x.eo", .interface⟩ :=
    hlists.find? "x.eo"
  refine ⟨hoffered, hfirst, ?_, fun name db' hok => ?_⟩
  · have hscan := hagain twinDisk (.ofString "/") twinDisk twinDatabase (scan_twins ▸ .refl) rfl rfl
    rwa [scan_twins] at hscan
  · obtain ⟨-, file, hfile, hname, hsame⟩ := hparse _ _ _ _ (by decide +kernel) hok
    have hx : fileName (.ofString "/b/x.eo") = .ok "x.eo" := by decide +kernel
    rw [hx] at hname
    cases hname
    have hparsed := Request.parse twinDatabase twinDisk "/b/x.eo"
    rw [hok] at hparsed
    have hkept := (hlater db' (.single hparsed)).1 _ _ hfirst
    rw [hkept] at hfile
    cases hfile
    exact absurd hsame (by decide +kernel)

end Database

end InterfaceCatalog
