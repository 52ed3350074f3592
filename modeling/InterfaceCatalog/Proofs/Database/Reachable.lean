import InterfaceCatalog.Database
import InterfaceCatalog.Proofs.Build.Loading

namespace InterfaceCatalog

namespace Database

/-- Holds of every database between two requests. -/
inductive Reachable : Database → Prop
  | new (settings : Settings) (reader : SourceReader) : Reachable { settings, reader }
  | scan {db : Database} (disk : Disk) (directory : Path) (h : Reachable db) :
      Reachable (db.scan disk directory).2
  | scanSystem {db : Database} (disk : Disk) (h : Reachable db) : Reachable (db.scanSystem disk).2
  | parse {db : Database} (disk : Disk) (nameOrPath : String) (h : Reachable db) :
      Reachable (db.parse disk nameOrPath).2
  | parseAll {db : Database} (disk : Disk) (kind : FileKind) (h : Reachable db) :
      Reachable (db.parseAll disk kind).2

/-- What loading from one catalog to another does, with nothing being built before or after. -/
def Leads (c c' : Catalog) : Prop :=
  Moves [] ⟨c, []⟩ ⟨c', []⟩

theorem Leads.refl (c : Catalog) : Leads c c := Relation.ReflTransGen.refl

theorem Leads.trans {c c' c'' : Catalog} (h : Leads c c') (h' : Leads c' c'') : Leads c c'' :=
  Relation.ReflTransGen.trans h h'

def Settled (c : Catalog) : Prop :=
  (⟨c, []⟩ : Progress).Sound []

theorem settled_empty : Settled {} := Accounted.empty

theorem Leads.settled {c c' : Catalog} (h : Leads c c') (hc : Settled c) : Settled c' :=
  Moves.sound h hc

/-- What a load does to the catalog. The file is parsed afterwards exactly if the
load does not fail. -/
theorem load_outcome (db : Database) (disk : Disk) (name : String) (hs : Settled db.catalog) :
    Leads db.catalog (db.load disk name).2.catalog ∧
      db.catalog.Adds (db.sources disk).Admits (db.load disk name).2.catalog ∧
      (db.catalog.Told → (db.load disk name).2.catalog.Told) ∧
      ((db.load disk name).1 = none ↔ name ∈ (db.load disk name).2.catalog.parsed) := by
  have hout := Sources.parseFile_outcome (db.sources disk) [] name db.catalog hs
  rw [List.map_nil] at hout
  unfold load
  cases hr : (db.sources disk).parseFile [] name db.catalog with
  | ok u c =>
    rw [hr] at hout
    obtain ⟨hsteps, hadds, htold, -, hparsed⟩ := hout
    exact ⟨Steps.moves hsteps, hadds, htold, by simpa using hparsed⟩
  | error e c =>
    rw [hr] at hout
    obtain ⟨hmoves, hadds, htold, -, -, hparsed⟩ := hout
    exact ⟨hmoves, hadds, htold, by simpa using hparsed⟩

/-- Where all names are declared, a load stores types as they are meant, and declares what it
enters. -/
theorem load_meant (db : Database) (disk : Disk) (name : String) (hs : Settled db.catalog)
    (ha : db.catalog.Announced) :
    MeantMoves [] ⟨db.catalog, []⟩ ⟨(db.load disk name).2.catalog, []⟩ ∧
      (db.load disk name).2.catalog.Announced := by
  have hout := Sources.parseFile_outcome (db.sources disk) [] name db.catalog hs
  rw [List.map_nil] at hout
  unfold load
  cases hr : (db.sources disk).parseFile [] name db.catalog with
  | ok u c =>
    rw [hr] at hout
    obtain ⟨-, -, -, hmeant, -⟩ := hout
    exact (hmeant ha).imp_left MeantSteps.moves
  | error e c =>
    rw [hr] at hout
    obtain ⟨-, -, -, hmeant, -⟩ := hout
    exact hmeant ha

theorem load_leads (db : Database) (disk : Disk) (name : String) (hs : Settled db.catalog) :
    Leads db.catalog (db.load disk name).2.catalog :=
  (load_outcome db disk name hs).1

theorem load_adds (db : Database) (disk : Disk) (name : String) (hs : Settled db.catalog) :
    db.catalog.Adds (db.sources disk).Admits (db.load disk name).2.catalog :=
  (load_outcome db disk name hs).2.1

theorem load_settled {db : Database} (disk : Disk) (name : String) (hs : Settled db.catalog) :
    Settled (db.load disk name).2.catalog :=
  (load_leads db disk name hs).settled hs

theorem load_sources (db : Database) (disk : Disk) (name : String) (disk' : Disk) :
    (db.load disk name).2.sources disk' = db.sources disk' := by
  unfold load
  split <;> rfl

theorem load_files (db : Database) (disk : Disk) (name : String) :
    (db.load disk name).2.files = db.files :=
  congrArg Sources.files (load_sources db disk name disk)

section

variable {P : Database → Prop} {db : Database}
  (hregister : ∀ {db : Database} {path : Path} {name : Option String} {files : FileTable},
    db.files.register db.settings path = .ok (name, files) → P db → P { db with files })

include hregister

/-- What is kept when a path is entered is kept when all files below a directory are. -/
theorem scan_induction (disk : Disk) (directory : Path) (h : P db) :
    P (db.scan disk directory).2 := by
  have all (findings : List Finding) {db : Database} (h : P db) :
      P { db with files := (db.files.registerAll db.settings findings).2 } := by
    induction findings generalizing db with
    | nil => exact h
    | cons finding findings ih =>
      cases finding with
      | barred path fault => exact h
      | file path =>
        unfold FileTable.registerAll
        split
        · exact h
        · next hr => exact ih (hregister hr h)
  unfold scan
  split
  · exact h
  · exact all _ h

theorem scanExisting_induction (disk : Disk) (directories : List Path) (h : P db) :
    P (scanExisting disk db directories).2 := by
  induction directories generalizing db with
  | nil => exact h
  | cons directory rest ih =>
    have hscan := scan_induction hregister disk directory h
    unfold scanExisting
    split
    · split
      · next e db' he => rwa [he] at hscan
      · next db' he => exact ih (by rwa [he] at hscan)
    · exact ih h

theorem nameFile_induction (disk : Disk) (nameOrPath : String) (h : P db) :
    P (db.nameFile disk nameOrPath).2 := by
  unfold nameFile
  dsimp only
  split
  · split
    · exact h
    · split
      · exact h
      · next hr => exact hregister hr h
      · next hr => exact hregister hr h
  · split <;> exact h

end

section

variable {P : Database → Prop} {disk : Disk} (hload : ∀ {db} name, P db → P (db.load disk name).2)

include hload

/-- What is kept by each load is kept when a file is parsed that is known by then. -/
theorem parse_induction {db : Database} {nameOrPath : String}
    (h : P (db.nameFile disk nameOrPath).2) : P (db.parse disk nameOrPath).2 := by
  unfold parse
  split
  · next e db' he => rwa [he] at h
  · next name db' he =>
    rw [he] at h
    have hl := hload name h
    split
    · next e db'' hl' => rwa [hl'] at hl
    · next db'' hl' =>
      rw [hl'] at hl
      split <;> exact hl

theorem loadEach_induction {names : List String} {db : Database} (h : P db) :
    P (loadEach disk db names).2 := by
  induction names generalizing db with
  | nil => exact h
  | cons name names ih =>
    have hl := hload name h
    unfold loadEach
    split
    · next db' he => rw [he] at hl; exact ih hl
    · next e db' he => rw [he] at hl; exact ih hl

end

/-- What holds of a new database, and is kept when a path is entered and when a file is loaded,
holds of every database of a session. -/
theorem Reachable.induction {P : Database → Prop}
    (hnew : ∀ (settings : Settings) (reader : SourceReader), P { settings, reader })
    (hregister : ∀ {db : Database} {path : Path} {name : Option String} {files : FileTable},
      db.files.register db.settings path = .ok (name, files) → P db → P { db with files })
    (hload : ∀ {db : Database} (disk : Disk) (name : String), P db → P (db.load disk name).2)
    {db : Database} (h : db.Reachable) : P db := by
  induction h with
  | new settings reader => exact hnew settings reader
  | scan disk directory h ih => exact scan_induction hregister disk directory ih
  | scanSystem disk h ih => exact scanExisting_induction hregister disk _ ih
  | parse disk nameOrPath h ih =>
    exact parse_induction (hload disk) (nameFile_induction hregister disk nameOrPath ih)
  | parseAll disk kind h ih => exact loadEach_induction (hload disk) ih

theorem scan_catalog (db : Database) (disk : Disk) (directory : Path) :
    (db.scan disk directory).2.catalog = db.catalog :=
  scan_induction (P := fun db' => db'.catalog = db.catalog) (fun _ h => h) disk directory rfl

theorem scanExisting_catalog (disk : Disk) (directories : List Path) (db : Database) :
    (scanExisting disk db directories).2.catalog = db.catalog :=
  scanExisting_induction (P := fun db' => db'.catalog = db.catalog)
    (fun _ h => h) disk directories rfl

theorem nameFile_catalog (db : Database) (disk : Disk) (nameOrPath : String) :
    (db.nameFile disk nameOrPath).2.catalog = db.catalog :=
  nameFile_induction (P := fun db' => db'.catalog = db.catalog) (fun _ h => h) disk nameOrPath rfl

theorem loadEach_leads (disk : Disk) (names : List String) (db : Database)
    (hs : Settled db.catalog) : Leads db.catalog (loadEach disk db names).2.catalog :=
  loadEach_induction (P := fun db' => Leads db.catalog db'.catalog)
    (fun name h => h.trans (load_leads _ disk name (h.settled hs))) (Leads.refl _)

theorem parse_sources (db : Database) (disk : Disk) (nameOrPath : String) :
    (db.parse disk nameOrPath).2.sources disk = (db.nameFile disk nameOrPath).2.sources disk :=
  parse_induction (P := fun db' => db'.sources disk = _)
    (fun name h => (load_sources _ disk name disk).trans h) rfl

/-- Every catalog of a session comes from the empty one by loading. -/
theorem Reachable.leads {db : Database} (h : db.Reachable) : Leads {} db.catalog :=
  h.induction (P := fun db => Leads {} db.catalog) (fun _ _ => Leads.refl _) (fun _ h => h)
    fun disk name h => h.trans (load_leads _ disk name (h.settled settled_empty))

theorem Reachable.settled {db : Database} (h : db.Reachable) : Settled db.catalog :=
  h.leads.settled settled_empty

/-- Reads two interface files whose classes inherit from each other. The class of the first one
is not well formed. -/
def cyclicReader : SourceReader := fun _ text =>
  if text = "a" then
    .ok {
      declaredClass := some { name := "A", inherits := ["B"], properties := [{ name := "p" }] } }
  else .ok { imports := ["a"], declaredClass := some { name := "B", inherits := ["A"] } }

def cyclicDisk : Disk where
  root :=
    .directory [(encodeUtf8 "a.eo", .file (encodeUtf8 "a")),
      (encodeUtf8 "b.eo", .file (encodeUtf8 "b"))]
  current := []

def cyclicDatabase : Database where
  settings := {}
  reader := cyclicReader
  files := {
    pool := ⟨["a.eo", "b.eo"]⟩
    files := [⟨"a.eo", .ofString "/a.eo", .interface⟩, ⟨"b.eo", .ofString "/b.eo", .interface⟩]
    interfaceNames := ["a.eo", "b.eo"] }

theorem directory?_slash {disk : Disk} (h : disk.root.isDirectory) :
    disk.directory? (.ofString "/") = some disk.root := by
  have hne : (Path.ofString "/").bytes ≠ [] := by decide +kernel
  have habsolute : (Path.ofString "/").isAbsolute = true := by decide +kernel
  have hpieces : (Path.ofString "/").pieces = [[], []] := by decide +kernel
  rw [Disk.directory?, Disk.locate, if_neg hne, habsolute, hpieces]
  cases hroot : disk.root with
  | file content => simp [hroot, Node.isDirectory] at h
  | directory entries => simp [Disk.walk, Node.find?, hroot]

theorem cyclicDisk_findings : cyclicDisk.root.findings cyclicDisk.barred (.ofString "/") =
    [.file (.ofString "/a.eo"), .file (.ofString "/b.eo")] := by
  rw [cyclicDisk, Node.findings]
  dsimp only
  rw [List.mergeSort_of_pairwise (by decide +kernel)]
  decide +kernel

theorem scan_cyclic (reader : SourceReader) :
    (scan { settings := {}, reader } cyclicDisk (.ofString "/")).2 =
      { cyclicDatabase with reader } := by
  have hfiles : ({} : FileTable).registerAll {}
      [.file (.ofString "/a.eo"), .file (.ofString "/b.eo")] = (none, cyclicDatabase.files) := by
    decide +kernel
  rw [scan, directory?_slash rfl]
  dsimp only
  rw [cyclicDisk_findings, hfiles]
  rfl

/-- The two files are known after a scan, whatever is read from them. -/
theorem scanned_reachable (reader : SourceReader) : Reachable { cyclicDatabase with reader } :=
  scan_cyclic reader ▸ .scan _ _ (.new _ _)

theorem nameFile_cyclic (reader : SourceReader) :
    Database.nameFile { cyclicDatabase with reader } cyclicDisk "a.eo" =
      (.ok "a.eo", { cyclicDatabase with reader }) := by
  have hfile : cyclicDisk.isFile (.ofString "a.eo") = true := by decide +kernel
  have hshadow : cyclicDatabase.files.shadowing? cyclicDisk (.ofString "a.eo") = none := by
    decide +kernel
  have hregister : cyclicDatabase.files.register cyclicDatabase.settings (.ofString "a.eo") =
      .ok (some "a.eo", cyclicDatabase.files) := by decide +kernel
  simp [nameFile, hfile, hshadow, hregister]

theorem cyclicDatabase_reachable : cyclicDatabase.Reachable :=
  scanned_reachable cyclicReader

end Database

end InterfaceCatalog
