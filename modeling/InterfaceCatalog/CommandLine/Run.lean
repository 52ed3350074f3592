import InterfaceCatalog.CommandLine.Arguments
import InterfaceCatalog.Database
import InterfaceCatalog.Query.Lookup
import InterfaceCatalog.Report
import InterfaceCatalog.Settings.Document
import InterfaceCatalog.Source.Notation

namespace InterfaceCatalog

structure Outcome where
  succeeded : Bool
  output : String
  errors : String

def SettingsFault.message (p : Path) : SettingsFault → String
  | access _ => s!"failed to read `{p.text}`"
  | malformed => s!"`{p.text}` holds no settings"

namespace Arguments

def settings (a : Arguments) (disk : Disk) (environment : Option Bytes) :
    Except String Settings :=
  match a.settingsFile with
  | none => .ok (({} : Settings).withEnvironment environment)
  | some p =>
    match Settings.load disk p with
    | .error fault => .error (fault.message p)
    | .ok s => .ok (s.withEnvironment environment)

/-- Scans the directories one after another, each whatever the others gave. -/
def scanEach (disk : Disk) : Database → List Path → Bool × Database
  | db, [] => (true, db)
  | db, p :: ps =>
    let (fault, db) := db.scan disk p
    let (succeeded, db) := scanEach disk db ps
    (fault.isNone && succeeded, db)

/-- Scans and parses all that the arguments ask for, types files first. -/
def populate (a : Arguments) (disk : Disk) (db : Database) : Bool × Database :=
  let (systemFault, db) := if a.scansSystem then db.scanSystem disk else (none, db)
  let (scanned, db) := scanEach disk db a.directories
  let (typesFaults, db) := db.parseAll disk .types
  let (interfaceFaults, db) := db.parseAll disk .interface
  (systemFault.isNone && scanned && typesFaults.isEmpty && interfaceFaults.isEmpty, db)

def run (a : Arguments) (disk : Disk) (environment : Option Bytes) : Outcome :=
  match a.settings disk environment with
  | .error message => ⟨false, "", message ++ "\n"⟩
  | .ok settings =>
    let (succeeded, db) := a.populate disk { settings, reader := fun _ => FileSource.read }
    let declarations := if a.listsAll then db.catalog.declarationList else ""
    match a.className with
    | none => ⟨succeeded, declarations, ""⟩
    | some name =>
      match db.catalog.findNamed? .classes none name with
      | some v => ⟨succeeded, db.catalog.classReport v ++ declarations, ""⟩
      | none => ⟨false, "", s!"no class is named `{name}`\n"⟩

end Arguments

end InterfaceCatalog
