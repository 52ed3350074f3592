import InterfaceCatalog.Catalog.Load

namespace InterfaceCatalog

structure Database where
  settings : Settings
  reader : SourceReader
  files : FileTable := {}
  catalog : Catalog := {}

namespace Database

def sources (db : Database) (disk : Disk) : Sources :=
  { settings := db.settings, reader := db.reader, files := db.files, disk }

/-- Enters the files below a directory, in the order of their paths. A directory that cannot be
listed ends the scan. -/
def scan (db : Database) (disk : Disk) (directory : Path) : Option LoadError × Database :=
  match disk.directory? directory with
  | none => (some (.notADirectory directory), db)
  | some node =>
    let (fault, files) := db.files.registerAll db.settings (node.findings disk.barred directory)
    (fault, { db with files })

/-- Scans those of a row of directories that exist, up to the first that fails. -/
def scanExisting (disk : Disk) : Database → List Path → Option LoadError × Database
  | db, [] => (none, db)
  | db, directory :: rest =>
    if (disk.directory? directory).isSome then
      match db.scan disk directory with
      | (some e, db) => (some e, db)
      | (none, db) => scanExisting disk db rest
    else scanExisting disk db rest

def scanSystem (db : Database) (disk : Disk) : Option LoadError × Database :=
  scanExisting disk db db.settings.systemDirectories

def load (db : Database) (disk : Disk) (name : String) : Option LoadError × Database :=
  match (db.sources disk).parseFile [] name db.catalog with
  | .ok _ catalog => (none, { db with catalog })
  | .error e catalog => (some e, { db with catalog })

/-- The name of the file that is meant. A path that exists is entered first; it may not hide a known
file. -/
def nameFile (db : Database) (disk : Disk) (nameOrPath : String) :
    Except LoadError String × Database :=
  let path := Path.ofString nameOrPath
  if disk.isFile path then
    match db.files.shadowing? disk path with
    | some known => (.error (.shadowedFile path known), db)
    | none =>
      match db.files.register db.settings path with
      | .error e => (.error e, db)
      | .ok (none, files) => (.error (.unsupportedFile path), { db with files })
      | .ok (some name, files) => (.ok name, { db with files })
  else
    match db.files.scanned? nameOrPath with
    | none => (.error (.unknownFile nameOrPath), db)
    | some name => (.ok name, db)

/-- Parses a file by name or path, and gives its name. -/
def parse (db : Database) (disk : Disk) (nameOrPath : String) :
    Except LoadError String × Database :=
  match db.nameFile disk nameOrPath with
  | (.error e, db) => (.error e, db)
  | (.ok name, db) =>
    match db.load disk name with
    | (some e, db) => (.error e, db)
    | (none, db) =>
      if db.catalog.isParsed name then (.ok name, db) else (.error (.unknownFile nameOrPath), db)

/-- Loads a row of files and collects the errors. -/
def loadEach (disk : Disk) : Database → List String → List LoadError × Database
  | db, [] => ([], db)
  | db, name :: names =>
    match db.load disk name with
    | (none, db) => loadEach disk db names
    | (some e, db) =>
      let (errors, db) := loadEach disk db names
      (e :: errors, db)

def parseAll (db : Database) (disk : Disk) (kind : FileKind) : List LoadError × Database :=
  loadEach disk db (db.files.namesOf kind)

end Database

end InterfaceCatalog
