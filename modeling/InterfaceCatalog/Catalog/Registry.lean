import InterfaceCatalog.Model.Record

namespace InterfaceCatalog

inductive Heading where
  | classes | structs | enums | aliases | constants | globals | declarations
  deriving DecidableEq

/-- The table whose records are listed under a heading. -/
@[reducible] def Heading.table : Heading → Table
  | .classes => .classes
  | .structs | .enums | .aliases => .typedecls
  | .constants | .globals => .variables
  | .declarations => .declarations

structure Entry (t : Table) where
  name : String
  file : String
  id : Id t
  deriving DecidableEq

/-- An index keeps what it answers in three tables: the entries with their names, a row of handles
for each file, and the handles of all files. -/
structure Index (t : Table) where
  entries : List (Entry t) := []
  rows : String → List (Id t) := fun _ => []
  order : List (Id t) := []

namespace Index

variable {t : Table}

def find? (index : Index t) (name : String) : Option (Entry t) :=
  index.entries.find? fun e => e.name = name

def inFile (index : Index t) (file : String) : List (Id t) :=
  index.rows file

def all (index : Index t) : List (Id t) :=
  index.order

/-- Puts an entry at the end of each table. Its name is in none of them. -/
def insert (index : Index t) (entry : Entry t) : Index t where
  entries := index.entries ++ [entry]
  rows file := if file = entry.file then index.rows file ++ [entry.id] else index.rows file
  order := index.order ++ [entry.id]

/-- Takes the entry of a name out of each table. Only the first one knows it by its name. -/
def remove (index : Index t) (name : String) : Index t :=
  match index.find? name with
  | none => index
  | some entry =>
    { entries := index.entries.filter fun e => e.name ≠ name
      rows file := if file = entry.file then (index.rows file).filter (· ≠ entry.id)
      else index.rows file
      order := index.order.filter (· ≠ entry.id) }

theorem entries_remove (index : Index t) (name : String) :
    (index.remove name).entries = index.entries.filter fun e => e.name ≠ name := by
  unfold remove
  split
  next hnone =>
    refine (List.filter_eq_self.mpr fun e he => ?_).symm
    simpa using List.find?_eq_none.mp hnone e he
  next => rfl

end Index

structure Registry where
  classes : Index .classes := {}
  structs : Index .typedecls := {}
  enums : Index .typedecls := {}
  aliases : Index .typedecls := {}
  constants : Index .variables := {}
  globals : Index .variables := {}
  declarations : Index .declarations := {}

namespace Registry

def index (r : Registry) : (h : Heading) → Index h.table
  | .classes => r.classes
  | .structs => r.structs
  | .enums => r.enums
  | .aliases => r.aliases
  | .constants => r.constants
  | .globals => r.globals
  | .declarations => r.declarations

def setIndex (r : Registry) : (h : Heading) → Index h.table → Registry
  | .classes, i => { r with classes := i }
  | .structs, i => { r with structs := i }
  | .enums, i => { r with enums := i }
  | .aliases, i => { r with aliases := i }
  | .constants, i => { r with constants := i }
  | .globals, i => { r with globals := i }
  | .declarations, i => { r with declarations := i }

@[simp] theorem index_setIndex_self (r : Registry) (h : Heading) (i : Index h.table) :
    (r.setIndex h i).index h = i := by
  cases h <;> rfl

theorem index_setIndex_of_ne (r : Registry) {h k : Heading} (i : Index h.table) (hk : h ≠ k) :
    (r.setIndex h i).index k = r.index k := by
  cases h <;> cases k <;> first | rfl | exact absurd rfl hk

/-- The type declaration of a name: structs go before enums, and these before aliases. -/
def typedecl? (r : Registry) (name : String) : Option (Id .typedecls) :=
  (((r.structs.find? name).or (r.enums.find? name)).or (r.aliases.find? name)).map Entry.id

end Registry

end InterfaceCatalog
