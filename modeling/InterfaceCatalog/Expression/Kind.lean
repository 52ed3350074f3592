import InterfaceCatalog.Number.Integer

namespace InterfaceCatalog

inductive Kind where
  | unknown
  | integer (kind : IntegerKind)
  | float | double | string | char | null | bool | name | unary | binary
  deriving DecidableEq

def Kind.all : List Kind :=
  [.unknown, .integer .int, .integer .uint, .integer .long, .integer .ulong, .integer .llong,
    .integer .ullong, .float, .double, .string, .char, .null, .bool, .name, .unary, .binary]

def Kind.text : Kind → String
  | .unknown => "Unknown"
  | .integer .int => "Int"
  | .integer .uint => "UInt"
  | .integer .long => "Long"
  | .integer .ulong => "ULong"
  | .integer .llong => "LLong"
  | .integer .ullong => "ULLong"
  | .float => "Float"
  | .double => "Double"
  | .string => "String"
  | .char => "Char"
  | .null => "Null"
  | .bool => "Bool"
  | .name => "Name"
  | .unary => "Unary"
  | .binary => "Binary"

/-- A set of value categories, one bit each. Bits above the categories are kept. -/
structure Mask where
  bits : BitVec 32
  deriving DecidableEq

namespace Mask

def none : Mask := ⟨0⟩
def signedInteger : Mask := ⟨1⟩
def unsignedInteger : Mask := ⟨2⟩
def float : Mask := ⟨4⟩
def bool : Mask := ⟨8⟩
def string : Mask := ⟨16⟩
def char : Mask := ⟨32⟩
def null : Mask := ⟨64⟩

def union (a b : Mask) : Mask := ⟨a.bits ||| b.bits⟩

def difference (a b : Mask) : Mask := ⟨a.bits &&& ~~~b.bits⟩

def intersects (a b : Mask) : Bool := a.bits &&& b.bits != 0

def contains (a b : Mask) : Bool := a.bits &&& b.bits == b.bits

def integer : Mask := signedInteger.union unsignedInteger
def signed : Mask := signedInteger.union float
def number : Mask := integer.union float
def truth : Mask := (number.union bool).union null
def all : Mask := (((number.union bool).union string).union char).union null

def categories : List (String × Mask) :=
  [("SINT", signedInteger), ("UINT", unsignedInteger), ("FLOAT", float), ("BOOL", bool),
    ("STRING", string), ("CHAR", char), ("NULL", null)]

/-- The names of the categories in the set, then the remaining bits in hexadecimal. -/
def text (m : Mask) : String :=
  let names := (categories.filter fun (_, c) => m.contains c).map (·.1)
  let hex := "0x" ++ String.ofList (Nat.toDigits 16 (m.difference all).bits.toNat)
  let parts := if m.difference all = none ∧ m ≠ none then names else names ++ [hex]
  "ExpressionMask(" ++ " | ".intercalate parts ++ ")"

end Mask

/-- The category of a kind of values, empty for the other kinds. -/
def Kind.mask : Kind → Mask
  | .integer k => if k.isSigned then .signedInteger else .unsignedInteger
  | .float | .double => .float
  | .string => .string
  | .char => .char
  | .null => .null
  | .bool => .bool
  | .unknown | .name | .unary | .binary => .none

end InterfaceCatalog
