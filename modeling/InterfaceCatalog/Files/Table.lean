import InterfaceCatalog.Catalog.Error
import InterfaceCatalog.Settings.Basic
import InterfaceCatalog.Text.Interner

namespace InterfaceCatalog

structure ScannedFile where
  name : String
  path : Path
  kind : FileKind
  deriving DecidableEq

/-- The known files with the pool that holds their names, and the names of each kind in the order
in which they came. -/
structure FileTable where
  pool : Interner := .empty
  files : List ScannedFile := []
  interfaceNames : List String := []
  typesNames : List String := []
  deriving DecidableEq

def fileName (p : Path) : Except ConversionFault String :=
  match p.fileName? with
  | none => .error (.invalidFileName p)
  | some name =>
    match decodeUtf8 name with
    | .ok text => .ok text
    | .error _ => .error (.invalidFileName p)

namespace FileTable

def find? (table : FileTable) (name : String) : Option ScannedFile :=
  table.files.find? fun f => f.name = name

def names (table : FileTable) : List String := table.files.map ScannedFile.name

theorem mem_names {table : FileTable} {name : String} {file : ScannedFile}
    (hf : table.find? name = some file) : name ∈ table.names := by
  have hmem := List.mem_of_find?_eq_some hf
  have hname := List.find?_some hf
  simp only [decide_eq_true_eq] at hname
  exact List.mem_map.mpr ⟨file, hmem, hname⟩

def contains (table : FileTable) (name : String) : Bool := (table.find? name).isSome

def ofKind (table : FileTable) (kind : FileKind) : List ScannedFile :=
  table.files.filter fun f => f.kind = kind

def namesOf (table : FileTable) : FileKind → List String
  | .interface => table.interfaceNames
  | .types => table.typesNames

/-- The paths of the files of a kind, by their names. -/
def paths (table : FileTable) (kind : FileKind) : List Path :=
  ((table.namesOf kind).filterMap table.find?).map ScannedFile.path

/-- A known name as the pool has it. -/
def scanned? (table : FileTable) (name : String) : Option String :=
  (table.pool.get? name).filter table.contains

/-- Puts in a file of a new name. -/
def enter (table : FileTable) (file : ScannedFile) : FileTable :=
  let pool := table.pool.intern file.name
  let files := table.files ++ [file]
  match file.kind with
  | .interface => { table with pool, files, interfaceNames := table.interfaceNames ++ [file.name] }
  | .types => { table with pool, files, typesNames := table.typesNames ++ [file.name] }

/-- Enters a path under its file name, which is the result. A path of neither kind is left out, and
a known name stays as it is. -/
def register (table : FileTable) (s : Settings) (p : Path) :
    Except LoadError (Option String × FileTable) :=
  match s.fileKind? p with
  | none => .ok (none, table)
  | some kind =>
    match fileName p with
    | .error fault => .error (.conversion p fault)
    | .ok name =>
      if table.contains name then .ok (table.pool.get? name, table)
      else .ok (some name, table.enter ⟨name, p, kind⟩)

/-- Enters the files that a scan finds, up to the first fault. -/
def registerAll (s : Settings) : FileTable → List Finding → Option LoadError × FileTable
  | table, [] => (none, table)
  | table, .barred p fault :: _ => (some (.access p fault), table)
  | table, .file p :: rest =>
    match table.register s p with
    | .error e => (some e, table)
    | .ok (_, table) => registerAll s table rest

/-- The path that a name is known by, if it is not that of `p`. -/
def shadowing? (table : FileTable) (disk : Disk) (p : Path) : Option Path :=
  match fileName p with
  | .error _ => none
  | .ok name =>
    match table.find? name with
    | none => none
    | some known =>
      if known.path.same p || disk.sameFile known.path p then none else some known.path

end FileTable

end InterfaceCatalog
