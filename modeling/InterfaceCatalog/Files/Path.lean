import InterfaceCatalog.Text.Utf8

namespace InterfaceCatalog

structure Path where
  bytes : Bytes
  deriving DecidableEq

inductive PathComponent where
  | root | current | parent
  | normal (name : Bytes)
  deriving DecidableEq

namespace Path

def slash : UInt8 := 47

def dot : UInt8 := 46

def ofString (text : String) : Path := ⟨encodeUtf8 text⟩

/-- The path as text, with U+FFFD for what is not UTF-8. -/
def text (p : Path) : String := displayUtf8 p.bytes

def piecesOf : Bytes → List Bytes
  | [] => [[]]
  | b :: bs =>
    if b = slash then [] :: piecesOf bs
    else
      match piecesOf bs with
      | [] => [[b]]
      | piece :: rest => (b :: piece) :: rest

def pieces (p : Path) : List Bytes := piecesOf p.bytes

def isAbsolute (p : Path) : Bool := p.bytes.head? == some slash

def components (p : Path) : List PathComponent :=
  let named (piece : Bytes) : Option PathComponent :=
    if piece = [] ∨ piece = [dot] then none
    else if piece = [dot, dot] then some .parent
    else some (.normal piece)
  let start : List PathComponent :=
    if p.isAbsolute then [.root] else if p.pieces.head? = some [dot] then [.current] else []
  start ++ p.pieces.filterMap named

def same (p q : Path) : Bool := p.components = q.components

/-- The last component if it is a name. -/
def fileName? (p : Path) : Option Bytes :=
  match p.components.getLast? with
  | some (.normal name) => some name
  | _ => none

/-- What follows the last dot of the file name. A name whose only dot comes first has no
extension. -/
def extension? (p : Path) : Option Bytes :=
  match p.fileName? with
  | none => none
  | some name =>
    let after := (name.reverse.takeWhile (· != dot)).reverse
    if name.length ≤ after.length + 1 then none else some after

def join (directory : Path) (name : Bytes) : Path :=
  match directory.bytes.getLast? with
  | none => ⟨name⟩
  | some b => if b = slash then ⟨directory.bytes ++ name⟩ else ⟨directory.bytes ++ slash :: name⟩

end Path

end InterfaceCatalog
