import InterfaceCatalog.Expression.Kind
import InterfaceCatalog.Number.Decimal

namespace InterfaceCatalog

inductive Value where
  | integer (n : Integer)
  | float (x : Single)
  | double (x : Double)
  | string (s : String)
  | char (c : Char)
  | bool (b : Bool)
  | null
  deriving DecidableEq

/-- A leaf of an expression: a value, or the name of a constant or an enum field. -/
inductive Literal where
  | value (v : Value)
  | name (n : String)
  deriving DecidableEq

def Value.kind : Value → Kind
  | .integer n => .integer n.kind
  | .float _ => .float
  | .double _ => .double
  | .string _ => .string
  | .char _ => .char
  | .bool _ => .bool
  | .null => .null

def Literal.kind : Literal → Kind
  | .value v => v.kind
  | .name _ => .name

def Value.equal : Value → Value → Bool
  | .float x, .float y => x.equal y
  | .double x, .double y => x.equal y
  | v, w => v = w

def Literal.equal : Literal → Literal → Bool
  | .value v, .value w => v.equal w
  | .name m, .name n => m = n
  | _, _ => false

/-- A character between quotes: five characters are written as an escape, and so is the quote. -/
def escapeChar (quote c : Char) : List Char :=
  if c = '\\' then ['\\', '\\']
  else if c = '\n' then ['\\', 'n']
  else if c = '\t' then ['\\', 't']
  else if c = '\r' then ['\\', 'r']
  else if c = '\x00' then ['\\', '0']
  else if c = quote then ['\\', c]
  else [c]

def quoted (quote : Char) (text : List Char) : String :=
  String.ofList (quote :: text.flatMap (escapeChar quote) ++ [quote])

def Value.text : Value → String
  | .integer n => n.text
  | .float x => x.text ++ "f"
  | .double x => x.text
  | .string s => quoted '"' s.toList
  | .char c => quoted '\x27' [c]
  | .bool b => if b then "true" else "false"
  | .null => "null"

def Literal.text : Literal → String
  | .value v => v.text
  | .name n => n

def Value.cText : Value → String
  | .bool b => if b then "EINA_TRUE" else "EINA_FALSE"
  | .null => "NULL"
  | v => v.text

end InterfaceCatalog
