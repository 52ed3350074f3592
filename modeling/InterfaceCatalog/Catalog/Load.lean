import InterfaceCatalog.Catalog.Build
import InterfaceCatalog.Files.Table

namespace InterfaceCatalog

/-- Reads a file of some path from its text. -/
abbrev SourceReader := Path → String → Except ReadFault FileSource

/-- Where files come from and how they are read. -/
structure Sources where
  settings : Settings
  reader : SourceReader
  files : FileTable
  disk : Disk

namespace Sources

def readSource (src : Sources) (file : ScannedFile) : Except LoadError FileSource :=
  match src.disk.read file.path with
  | .error fault => .error (.access file.path fault)
  | .ok bytes =>
    match decodeText bytes with
    | .error offset => .error (.conversion file.path (.invalidUtf8 offset))
    | .ok text =>
      match src.reader file.path text with
      | .error fault => .error (.reader file.name fault)
      | .ok source => .ok source

/-- The known files that are not being loaded. -/
def idle (src : Sources) (loading : List String) : List String :=
  src.files.names.filter fun name => !loading.contains name

theorem idle_lt {src : Sources} {loading : List String} {name : String} {file : ScannedFile}
    (hf : src.files.find? name = some file) (hn : name ∉ loading) :
    (src.idle (name :: loading)).length < (src.idle loading).length := by
  refine Catalog.length_filter_lt (y := name) ?_ (FileTable.mem_names hf) ?_ ?_
  · intro x hx
    simp only [List.contains_cons, Bool.not_or, Bool.and_eq_true] at hx
    exact hx.2
  · simpa using hn
  · simp

/-- Loads a known file while those of `loading` are being loaded. These count as done, so that
files may depend on each other. -/
def parseFile (src : Sources) (loading : List String) (name : String) : Loading Unit := fun c =>
  if _hd : c.isParsed name || loading.contains name then .ok () c
  else
    match _hf : src.files.find? name with
    | none => .error (.unknownFile name) c
    | some file =>
      match src.readSource file with
      | .error e => .error e c
      | .ok source =>
        let site : Site := {
          file := name, kind := file.kind, settings := src.settings
          isScanned := src.files.contains,
          load := fun other => parseFile src (name :: loading) other }
        match buildFile site source c with
        | .ok journal d =>
          let build : Build := {
            file := name, source, imports := source.imports.filterMap (Building.importedFile? site)
            outer := loading, inner := d.parsed.drop c.parsed.length, journal }
          .ok () { d with builds := d.builds ++ [build] }
        | .error e c => .error e c
termination_by (src.idle loading).length
decreasing_by
  refine idle_lt _hf ?_
  simp only [Bool.or_eq_true, not_or] at _hd
  simpa using _hd.2

end Sources

end InterfaceCatalog
