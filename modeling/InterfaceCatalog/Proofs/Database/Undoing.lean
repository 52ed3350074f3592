import InterfaceCatalog.Proofs.Build.Undoing
import InterfaceCatalog.Proofs.Database.Bulk

namespace InterfaceCatalog

namespace Database

/-- The changes that are taken back when a file is loaded. -/
def undone (db : Database) (disk : Disk) (name : String) : List Change :=
  (db.sources disk).undone [] name db.catalog

/-- The changes that are taken back when a file is parsed. -/
def parseUndone (db : Database) (disk : Disk) (nameOrPath : String) : List Change :=
  match db.nameFile disk nameOrPath with
  | (.error _, _) => []
  | (.ok name, db) => db.undone disk name

/-- The changes that are taken back when a row of files is loaded. -/
def loadEachUndone (disk : Disk) : Database → List String → List Change
  | _, [] => []
  | db, name :: names => db.undone disk name ++ loadEachUndone disk (db.load disk name).2 names

def parseAllUndone (db : Database) (disk : Disk) (kind : FileKind) : List Change :=
  loadEachUndone disk db ((db.files.ofKind kind).map ScannedFile.name)

/-- A database between two requests, with all changes that were taken back before. -/
inductive Lived : Database → List Change → Prop
  | new (settings : Settings) (reader : SourceReader) : Lived { settings, reader } []
  | scan {db : Database} {past : List Change} (disk : Disk) (directory : Path) (h : Lived db past) :
      Lived (db.scan disk directory).2 past
  | scanSystem {db : Database} {past : List Change} (disk : Disk) (h : Lived db past) :
      Lived (db.scanSystem disk).2 past
  | parse {db : Database} {past : List Change} (disk : Disk) (nameOrPath : String)
      (h : Lived db past) :
      Lived (db.parse disk nameOrPath).2 (past ++ db.parseUndone disk nameOrPath)
  | parseAll {db : Database} {past : List Change} (disk : Disk) (kind : FileKind)
      (h : Lived db past) :
      Lived (db.parseAll disk kind).2 (past ++ db.parseAllUndone disk kind)

variable {db : Database} {past : List Change}

theorem Lived.reachable (h : db.Lived past) : db.Reachable := by
  induction h with
  | new settings reader => exact .new settings reader
  | scan disk directory _ ih => exact .scan disk directory ih
  | scanSystem disk _ ih => exact .scanSystem disk ih
  | parse disk nameOrPath _ ih => exact .parse disk nameOrPath ih
  | parseAll disk kind _ ih => exact .parseAll disk kind ih

theorem scanned_lived (reader : SourceReader) : Lived { cyclicDatabase with reader } [] :=
  scan_cyclic reader ▸ .scan _ _ (.new _ _)

/-- Every session has taken back some changes. -/
theorem Reachable.exists_lived (h : db.Reachable) : ∃ past, db.Lived past := by
  induction h with
  | new settings reader => exact ⟨_, .new settings reader⟩
  | scan disk directory _ ih => exact ih.imp fun _ hpast => .scan disk directory hpast
  | scanSystem disk _ ih => exact ih.imp fun _ hpast => .scanSystem disk hpast
  | parse disk nameOrPath _ ih =>
    obtain ⟨_, hpast⟩ := ih
    exact ⟨_, .parse disk nameOrPath hpast⟩
  | parseAll disk kind _ ih =>
    obtain ⟨_, hpast⟩ := ih
    exact ⟨_, .parseAll disk kind hpast⟩

theorem load_faithful {disk : Disk} {name : String} (hs : Settled db.catalog)
    (h : db.catalog.Faithful past) (hb : FreesBounded (past ++ db.undone disk name)) :
    (db.load disk name).2.catalog.Faithful (past ++ db.undone disk name) := by
  have hkeeps := (db.sources disk).keeps [] name db.catalog hs h
  rw [List.map_nil] at hkeeps
  have hafter := hkeeps hb
  unfold load
  cases hr : (db.sources disk).parseFile [] name db.catalog with
  | ok u c | error e c =>
    rw [hr] at hafter
    exact hafter

theorem parse_faithful {disk : Disk} {nameOrPath : String} (hs : Settled db.catalog)
    (h : db.catalog.Faithful past) (hb : FreesBounded (past ++ db.parseUndone disk nameOrPath)) :
    (db.parse disk nameOrPath).2.catalog.Faithful (past ++ db.parseUndone disk nameOrPath) := by
  have hcatalog := nameFile_catalog db disk nameOrPath
  unfold parse
  unfold parseUndone at hb ⊢
  generalize db.nameFile disk nameOrPath = named at hcatalog hb ⊢
  obtain ⟨e | name, db'⟩ := named
  · rw [List.append_nil, show db'.catalog = db.catalog from hcatalog]
    exact h
  · have hload := load_faithful (hcatalog.symm ▸ hs) (hcatalog.symm ▸ h) hb
    dsimp only
    generalize db'.load disk name = loaded at hload ⊢
    obtain ⟨_ | e, db''⟩ := loaded
    · dsimp only
      split <;> exact hload
    · exact hload

theorem loadEach_faithful {disk : Disk} {names : List String} (hs : Settled db.catalog)
    (h : db.catalog.Faithful past) (hb : FreesBounded (past ++ loadEachUndone disk db names)) :
    (loadEach disk db names).2.catalog.Faithful (past ++ loadEachUndone disk db names) := by
  rw [loadEach_eq]
  induction names generalizing db past with
  | nil =>
    rw [loadEachUndone, List.append_nil]
    exact h
  | cons name names ih =>
    rw [loadEachUndone, ← List.append_assoc] at hb ⊢
    exact ih (load_settled disk name hs) (load_faithful hs h hb.of_append) hb

theorem Lived.faithful (h : db.Lived past) (hb : FreesBounded past) : db.catalog.Faithful past := by
  induction h with
  | new settings reader => exact ⟨Catalog.aged_empty, .empty⟩
  | scan disk directory _ ih =>
    rw [scan_catalog]
    exact ih hb
  | scanSystem disk _ ih =>
    rw [Database.scanSystem, scanExisting_catalog]
    exact ih hb
  | parse disk nameOrPath hpast ih =>
    exact parse_faithful hpast.reachable.settled (ih hb.of_append) hb
  | parseAll disk kind hpast ih =>
    rw [Database.parseAll, hpast.reachable.namesOf_eq]
    exact loadEach_faithful hpast.reachable.settled (ih hb.of_append) hb

end Database

end InterfaceCatalog
