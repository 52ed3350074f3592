namespace InterfaceCatalog

inductive TableOrigin where
  | written | implied | dotted
  deriving DecidableEq

/-- A value of a document. Numbers and dates are kept as they are written; a table in braces is
closed, and a row of tables grows by its headers. -/
inductive Toml where
  | text (content : String)
  | bool (value : Bool)
  | scalar (digits : String)
  | array (items : List Toml)
  | braced (entries : List (String × Toml))
  | table (origin : TableOrigin) (entries : List (String × Toml))
  | tables (rows : List (TableOrigin × List (String × Toml)))

structure TomlTable where
  origin : TableOrigin
  entries : List (String × Toml)

/-- A key: the names of the tables on its way, and the name in the last of them. -/
structure TomlKey where
  path : List String
  name : String

structure TomlPair where
  key : TomlKey
  value : Toml

/-- A header with the pairs below it. It makes a table, or a further table of a row. -/
structure TomlSection where
  header : TomlKey
  isRow : Bool
  pairs : List TomlPair

namespace TomlTable

def empty (origin : TableOrigin) : TomlTable := ⟨origin, []⟩

def get? (t : TomlTable) (name : String) : Option Toml := t.entries.lookup name

/-- Puts a value at a name, in its old place if it has one. -/
def put (t : TomlTable) (name : String) (value : Toml) : TomlTable :=
  if (t.get? name).isSome then
    { t with entries := t.entries.map fun e => if e.1 = name then (name, value) else e }
  else { t with entries := t.entries ++ [(name, value)] }

/-- Changes the table at the end of a path, with new tables on the way where there are none. A row
of tables stands for its last one. A dotted key passes through no table that is written. -/
def update? (dotted : Bool) (change : TomlTable → Option TomlTable) :
    TomlTable → List String → Option TomlTable
  | t, [] => change t
  | t, name :: path => do
    match t.get? name with
    | none =>
      let child ← update? dotted change (empty (if dotted then .dotted else .implied)) path
      return t.put name (.table child.origin child.entries)
    | some (.table origin entries) =>
      if dotted && origin = .written then none
      else
        let child ← update? dotted change ⟨origin, entries⟩ path
        return t.put name (.table child.origin child.entries)
    | some (.tables rows) =>
      let (origin, entries) ← rows.getLast?
      let child ← update? dotted change ⟨origin, entries⟩ path
      return t.put name (.tables (rows.dropLast ++ [(child.origin, child.entries)]))
    | some _ => none

/-- Adds a pair. A dotted key ends in a table that dotted keys made, and a name occurs once. -/
def addPair? (t : TomlTable) (p : TomlPair) : Option TomlTable :=
  t.update? true (fun last =>
    if (last.origin = .dotted ↔ p.key.path = []) || (last.get? p.key.name).isSome then none
    else some (last.put p.key.name p.value)) p.key.path

def addPairs? (t : TomlTable) (pairs : List TomlPair) : Option TomlTable :=
  pairs.foldlM addPair? t

def addSection? (t : TomlTable) (s : TomlSection) : Option TomlTable :=
  t.update? false (fun last =>
    match last.get? s.header.name, s.isRow with
    | none, isRow => do
      let new ← (empty .written).addPairs? s.pairs
      return last.put s.header.name
        (if isRow then .tables [(new.origin, new.entries)] else .table new.origin new.entries)
    | some (.table .implied entries), false => do
      let new ← (TomlTable.mk .written entries).addPairs? s.pairs
      return last.put s.header.name (.table new.origin new.entries)
    | some (.tables rows), true => do
      let new ← (empty .written).addPairs? s.pairs
      return last.put s.header.name (.tables (rows ++ [(new.origin, new.entries)]))
    | _, _ => none) s.header.path

def ofSections? (pairs : List TomlPair) (sections : List TomlSection) : Option TomlTable := do
  sections.foldlM addSection? (← (empty .written).addPairs? pairs)

end TomlTable

namespace Toml

def text? : Toml → Option String
  | text content => some content
  | _ => none

def texts? : Toml → Option (List String)
  | array items => items.mapM text?
  | _ => none

end Toml

end InterfaceCatalog
