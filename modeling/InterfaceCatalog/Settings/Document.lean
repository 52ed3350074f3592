import InterfaceCatalog.Files.Disk
import InterfaceCatalog.Settings.Basic
import InterfaceCatalog.Toml.Reader

namespace InterfaceCatalog

inductive SettingsFault where
  | access (fault : AccessFault)
  | malformed
  deriving DecidableEq

namespace Settings

def key? (t : TomlTable) (name : String) (read : Toml → Option α) (fallback : α) : Option α :=
  match t.get? name with
  | none => some fallback
  | some v => read v

def ofTable? (t : TomlTable) : Option Settings := do
  let standard : Settings := {}
  return {
    systemDirectories := ← key? t "system_directories"
      (fun v => v.texts?.map (·.map Path.ofString)) standard.systemDirectories
    interfaceExtension := ← key? t "interface_extension" Toml.text? standard.interfaceExtension
    typesExtension := ← key? t "types_extension" Toml.text? standard.typesExtension }

def read? (source : String) : Option Settings := do
  ofTable? (← TomlTable.read? source)

/-- Loads settings from a file, which must be text. -/
def load (disk : Disk) (p : Path) : Except SettingsFault Settings :=
  match disk.read p with
  | .error fault => .error (.access fault)
  | .ok bytes =>
    match decodeUtf8 bytes with
    | .error _ => .error (.access .invalidData)
    | .ok source =>
      match read? source with
      | none => .error .malformed
      | some s => .ok s

def quotedChar (c : Char) : String :=
  if c = '"' ∨ c = '\\' then String.ofList ['\\', c]
  else if isLineChar c then String.ofList [c]
  else
    let digits := Nat.toDigits 16 c.toNat
    String.ofList ('\\' :: 'u' :: (List.replicate (4 - digits.length) '0' ++ digits))

def quotedText (s : String) : String :=
  "\"" ++ String.join (s.toList.map quotedChar) ++ "\""

/-- A row of texts: several stand each on a line of its own. -/
def textRow (texts : List String) : String :=
  match texts with
  | [] => "[]"
  | [s] => "[" ++ quotedText s ++ "]"
  | texts => "[\n" ++ String.join (texts.map fun s => "    " ++ quotedText s ++ ",\n") ++ "]"

/-- The document of the settings, if their directories are text. -/
def render? (s : Settings) : Option String := do
  let directories ← s.systemDirectories.mapM fun p => (decodeUtf8 p.bytes).toOption
  return "system_directories = " ++ textRow directories ++ "\n" ++
    "interface_extension = " ++ quotedText s.interfaceExtension ++ "\n" ++
    "types_extension = " ++ quotedText s.typesExtension ++ "\n"

end Settings

end InterfaceCatalog
