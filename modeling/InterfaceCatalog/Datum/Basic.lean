namespace InterfaceCatalog

inductive Datum where
  | text (content : String)
  | bool (value : Bool)
  | word (name : String)
  | number (digits : String)
  | char (c : Char)
  | absent
  | present (content : Datum)
  | list (items : List Datum)
  | tuple (name : Option String) (items : List Datum)
  | record (name : Option String) (fields : List (String × Datum))
  | map (entries : List (Datum × Datum))
  deriving Inhabited

abbrev Fields := List (String × Datum)

namespace Datum

def text? : Datum → Option String
  | text content => some content
  | _ => none

def bool? : Datum → Option Bool
  | bool value => some value
  | _ => none

def word? : Datum → Option String
  | word name => some name
  | _ => none

def list? : Datum → Option (List Datum)
  | list items => some items
  | _ => none

/-- The fields of a record. A record may bear the name of its kind or none. -/
def fields? (kind : String) : Datum → Option Fields
  | record name fields => if name.all (· = kind) then some fields else none
  | _ => none

def optional? (read : Datum → Option α) : Datum → Option (Option α)
  | absent => some none
  | present content => (read content).map some
  | d => (read d).map some

def each? (read : Datum → Option α) (d : Datum) : Option (List α) := do
  (← d.list?).mapM read

def ofOptional (write : α → Datum) : Option α → Datum
  | none => absent
  | some a => present (write a)

def ofList (write : α → Datum) (as : List α) : Datum := list (as.map write)

end Datum

/-- Reads the field of a name; without it, `fallback` holds. A name occurs once. -/
def Fields.get? (fields : Fields) (name : String) (read : Datum → Option α) (fallback : α) :
    Option α :=
  match fields.filter (·.1 = name) with
  | [] => some fallback
  | [(_, d)] => read d
  | _ => none

end InterfaceCatalog
