import InterfaceCatalog.Datum.Basic

namespace InterfaceCatalog

inductive Shape where
  | any
  | text
  | bool
  | word
  | optional (content : Shape)
  | list (item : Shape)
  | record (kind : String)
  deriving DecidableEq

/-- The shapes of the fields in each kind of record. -/
abbrev Schema := String → List (String × Shape)

/-- The shape of a field. A field that the kind does not have may hold any datum. -/
def Schema.shapeOf (schema : Schema) (kind field : String) : Shape :=
  ((schema kind).lookup field).getD .any

abbrev Datum.Reader := Shape → List Char → Option (Datum × List Char)

def Datum.readBool? : List Char → Option (Datum × List Char)
  | 't' :: 'r' :: 'u' :: 'e' :: cs => some (bool true, cs)
  | 'f' :: 'a' :: 'l' :: 's' :: 'e' :: cs => some (bool false, cs)
  | _ => none

end InterfaceCatalog
