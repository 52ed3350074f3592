import InterfaceCatalog.Files.Path

namespace InterfaceCatalog

inductive Node where
  | file (content : Bytes)
  | directory (entries : List (Bytes × Node))

inductive AccessFault where
  | notFound | notADirectory | isADirectory | invalidData | permissionDenied
  deriving DecidableEq

/-- What a scan comes upon: a file, or a directory that cannot be listed. -/
inductive Finding where
  | file (path : Path)
  | barred (path : Path) (fault : AccessFault)
  deriving DecidableEq

def bytesLess : Bytes → Bytes → Bool
  | _, [] => false
  | [], _ :: _ => true
  | a :: as, b :: bs => a < b || (a == b && bytesLess as bs)

namespace Node

def empty : Node := directory []

def isDirectory : Node → Bool
  | file _ => false
  | directory _ => true

def child? : Node → Bytes → Option Node
  | file _, _ => none
  | directory entries, name => entries.lookup name

def find? (node : Node) : List Bytes → Option Node
  | [] => some node
  | name :: rest =>
    match node.child? name with
    | none => none
    | some child => child.find? rest

/-- Puts a node at a place, with directories on the way to it. A directory stays where one is. -/
def place (node new : Node) : List Bytes → Node
  | [] => if node.isDirectory && new.isDirectory then node else new
  | name :: rest =>
    match node with
    | file content => file content
    | directory entries =>
      match entries.lookup name with
      | none => directory (entries ++ [(name, if rest.isEmpty then new else empty.place new rest)])
      | some child =>
        directory (entries.map fun entry =>
          if entry.1 == name then (name, child.place new rest) else entry)

def erase (node : Node) : List Bytes → Node
  | [] => node
  | name :: rest =>
    match node with
    | file content => file content
    | directory entries =>
      if rest.isEmpty then directory (entries.filter (·.1 != name))
      else
        directory (entries.map fun (n, child) =>
          if n == name then (n, child.erase rest) else (n, child))

mutual

/-- What is found below a node at a path, in the order of the paths. Some directories are barred. -/
def findings (barred : Path → Option AccessFault) (path : Path) : Node → List Finding
  | file _ => [.file path]
  | directory entries =>
    match barred path with
    | some fault => [.barred path fault]
    | none =>
      ((entryFindings barred path entries).mergeSort fun a b => !bytesLess b.1 a.1).flatMap (·.2)

def entryFindings (barred : Path → Option AccessFault) (path : Path) :
    List (Bytes × Node) → List (Bytes × List Finding)
  | [] => []
  | (name, node) :: rest =>
    (name, findings barred (path.join name) node) :: entryFindings barred path rest

end

end Node

/-- A tree, the place in it from which relative paths start, and the paths of the directories that
cannot be listed, with the faults that are met there. -/
structure Disk where
  root : Node
  current : List Bytes
  barred : Path → Option AccessFault := fun _ => none

namespace Disk

/-- Follows the pieces of a path from a place. Only a directory can be left downwards or upwards. -/
def walk (disk : Disk) (place : List Bytes) : List Bytes → Except AccessFault (List Bytes × Node)
  | [] =>
    match disk.root.find? place with
    | none => .error .notFound
    | some node => .ok (place, node)
  | piece :: rest =>
    match disk.root.find? place with
    | none => .error .notFound
    | some (.file _) => .error .notADirectory
    | some (.directory entries) =>
      if piece = [] ∨ piece = [Path.dot] then disk.walk place rest
      else if piece = [Path.dot, Path.dot] then disk.walk place.dropLast rest
      else if (entries.lookup piece).isSome then disk.walk (place ++ [piece]) rest
      else .error .notFound

/-- The place of a path in the tree, free of dots, and the node there. -/
def locate (disk : Disk) (p : Path) : Except AccessFault (List Bytes × Node) :=
  if p.bytes = [] then .error .notFound
  else disk.walk (if p.isAbsolute then [] else disk.current) p.pieces

def isFile (disk : Disk) (p : Path) : Bool :=
  match disk.locate p with
  | .ok (_, .file _) => true
  | _ => false

def directory? (disk : Disk) (p : Path) : Option Node :=
  match disk.locate p with
  | .ok (_, .directory entries) => some (.directory entries)
  | _ => none

def read (disk : Disk) (p : Path) : Except AccessFault Bytes :=
  match disk.locate p with
  | .ok (_, .file content) => .ok content
  | .ok (_, .directory _) => .error .isADirectory
  | .error fault => .error fault

def sameFile (disk : Disk) (p q : Path) : Bool :=
  match disk.locate p, disk.locate q with
  | .ok (a, _), .ok (b, _) => a = b
  | _, _ => false

def names (p : Path) : List Bytes :=
  p.components.filterMap fun
    | .normal name => some name
    | _ => none

def write (disk : Disk) (p : Path) (content : Bytes) : Disk :=
  { disk with root := disk.root.place (.file content) (names p) }

def makeDirectory (disk : Disk) (p : Path) : Disk :=
  { disk with root := disk.root.place .empty (names p) }

def delete (disk : Disk) (p : Path) : Disk :=
  { disk with root := disk.root.erase (names p) }

end Disk

end InterfaceCatalog
