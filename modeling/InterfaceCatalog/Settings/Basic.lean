import InterfaceCatalog.Files.Path
import InterfaceCatalog.Model.Kind

namespace InterfaceCatalog

def systemDirectoriesVariable : String := "EOLIAN_SYSTEM_DIRECTORIES"

structure Settings where
  systemDirectories : List Path := [.ofString "/usr/share/eolian/include"]
  interfaceExtension : String := "eo"
  typesExtension : String := "eot"
  deriving DecidableEq

namespace Settings

/-- The paths between the colons of a value, empty ones included. -/
def splitPaths : Bytes → List Path
  | [] => [⟨[]⟩]
  | b :: bs =>
    if b = 58 then ⟨[]⟩ :: splitPaths bs
    else
      match splitPaths bs with
      | [] => [⟨[b]⟩]
      | p :: rest => ⟨b :: p.bytes⟩ :: rest

/-- Takes the system directories from the variable if it is set. -/
def withEnvironment (s : Settings) (value : Option Bytes) : Settings :=
  match value with
  | none => s
  | some paths => { s with systemDirectories := splitPaths paths }

/-- The kind of a file by its extension. The extension of interface files goes first. -/
def fileKind? (s : Settings) (p : Path) : Option FileKind :=
  match p.extension? with
  | none => none
  | some extension =>
    if extension = encodeUtf8 s.interfaceExtension then some .interface
    else if extension = encodeUtf8 s.typesExtension then some .types
    else none

end Settings

end InterfaceCatalog
