import InterfaceCatalog.Proofs.Build.Lifetime
import InterfaceCatalog.Proofs.Database.Integrity

namespace InterfaceCatalog

namespace Database

inductive Request : Database → Database → Prop
  | scan (db : Database) (disk : Disk) (directory : Path) : Request db (db.scan disk directory).2
  | scanSystem (db : Database) (disk : Disk) : Request db (db.scanSystem disk).2
  | parse (db : Database) (disk : Disk) (nameOrPath : String) :
      Request db (db.parse disk nameOrPath).2
  | parseAll (db : Database) (disk : Disk) (kind : FileKind) : Request db (db.parseAll disk kind).2

/-- The databases that a session can come to from one. -/
abbrev Later : Database → Database → Prop :=
  Relation.ReflTransGen Request

/-- What is kept when a path is entered and when a file is loaded is kept by a request. -/
theorem Request.induction {P : Database → Prop}
    (hregister : ∀ {db : Database} {path : Path} {name : Option String} {files : FileTable},
      db.files.register db.settings path = .ok (name, files) → P db → P { db with files })
    (hload : ∀ {db : Database} (disk : Disk) (name : String), P db → P (db.load disk name).2)
    {db db' : Database} (h : Request db db') (hP : P db) : P db' := by
  cases h with
  | scan disk directory => exact scan_induction hregister disk directory hP
  | scanSystem disk => exact scanExisting_induction hregister disk _ hP
  | parse disk nameOrPath =>
    exact parse_induction (hload disk) (nameFile_induction hregister disk nameOrPath hP)
  | parseAll disk kind => exact loadEach_induction (hload disk) hP

theorem Request.leads {db db' : Database} (h : Request db db') (hs : Settled db.catalog) :
    Leads db.catalog db'.catalog :=
  h.induction (P := fun db' => Leads db.catalog db'.catalog) (fun _ h => h)
    (fun disk name h => h.trans (load_leads _ disk name (h.settled hs))) (Leads.refl _)

theorem Later.leads {db db' : Database} (h : Later db db') (hs : Settled db.catalog) :
    Leads db.catalog db'.catalog := by
  induction h with
  | refl => exact Leads.refl _
  | tail _ hr ih => exact ih.trans (hr.leads (ih.settled hs))

end Database

end InterfaceCatalog
