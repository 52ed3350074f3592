import InterfaceCatalog.Catalog.Basic
import InterfaceCatalog.Catalog.Error
import InterfaceCatalog.Settings.Basic

namespace InterfaceCatalog

def Change.undo (c : Catalog) : Change → Catalog
  | inserted _ id => c.remove id
  | registered h name => c.strike h name

/-- Takes back the changes of a journal, newest first. -/
def Catalog.rollback (c : Catalog) (journal : List Change) : Catalog :=
  journal.foldl Change.undo c

/-- That a record was read or changed by its handle, and whether it was there at that moment. -/
structure Access where
  table : Table
  handle : Handle
  live : Bool
  deriving DecidableEq

/-- The state of a file that is being built. -/
structure Draft where
  catalog : Catalog
  /-- The changes of this build, newest first. -/
  journal : List Change
  /-- The loads that this build asked for, newest first, each with the catalog that it was asked
  on. -/
  loads : List (String × Catalog) := []
  /-- The records that this build itself read or changed by their handles, newest first. -/
  accesses : List Access := []

/-- The state after another file was loaded. -/
def Draft.loaded (d : Draft) (file : String) (c : Catalog) : Draft :=
  { d with catalog := c, loads := (file, d.catalog) :: d.loads }

/-- The state after a record was looked up by its handle. -/
def Draft.accessed (d : Draft) {t : Table} (id : Id t) : Draft :=
  { d with accesses := ⟨t, id.handle, (d.catalog.get? id).isSome⟩ :: d.accesses }

abbrev Loading := EStateM LoadError Catalog

abbrev Building := EStateM LoadError Draft

/-- What a build knows of its surroundings: the file, the settings, which files there are, and how
another one is loaded. -/
structure Site where
  file : String
  kind : FileKind
  settings : Settings
  isScanned : String → Bool
  load : String → Loading Unit

namespace Building

def fail {α : Type} (e : LoadError) : Building α := throw e

/-- Loads another file. Its failure is one of a dependency of this file. -/
def load (s : Site) (file : String) : Building Unit := fun d =>
  match s.load file d.catalog with
  | .ok _ c => .ok () (d.loaded file c)
  | .error e c => .error (.dependency s.file e) (d.loaded file c)

def insert {t : Table} (record : Record t) : Building (Id t) := fun d =>
  let id := d.catalog.store.next t
  .ok id { d with catalog := d.catalog.insert record, journal := .inserted t id :: d.journal }

def fetch {t : Table} (id : Id t) : Building (Record t) := fun d =>
  match d.catalog.get? id with
  | some record => .ok record (d.accessed id)
  | none => .error (.staleRecord t id.handle) (d.accessed id)

/-- Changes a record that is live at this point. Its insertion is noted already. -/
def modify {t : Table} (id : Id t) (f : Record t → Record t) : Building Unit := fun d =>
  match d.catalog.get? id with
  | some _ => .ok () { d.accessed id with catalog := d.catalog.modify id f }
  | none => .error (.staleRecord t id.handle) (d.accessed id)

/-- Enters a name under a heading. A name is taken once. -/
def register (s : Site) (h : Heading) (name : String) (id : Id h.table) : Building Unit := fun d =>
  match (d.catalog.registry.index h).find? name with
  | some entry => .error (.redefinition name entry.file) d
  | none =>
    .ok () { d with
      catalog := d.catalog.enter h ⟨name, s.file, id⟩, journal := .registered h name :: d.journal }

def registry : Building Registry := fun d => .ok d.catalog.registry d

def catalog : Building Catalog := fun d => .ok d.catalog d

def checkAvailable (name : String) : Building Unit := do
  match (← registry).declarations.find? name with
  | some entry => fail (.redefinition name entry.file)
  | none => pure ()

def declare (s : Site) (name : String) (kind : DeclarationKind) (target : DeclarationTarget) :
    Building Unit := do
  let id ← insert (t := .declarations) ⟨name, s.file, kind, target⟩
  register s .declarations name id

/-- Builds the members of an owner in order. A member whose name came before fails in its turn. -/
def distinctly {α β : Type} (owner : String) (name : α → String) (build : α → Building β) :
    (seen : List String) → List α → Building (List β)
  | _, [] => pure []
  | seen, a :: as => do
    if seen.contains (name a) then fail (.duplicateMember owner (name a))
    let b ← build a
    let bs ← distinctly owner name build (name a :: seen) as
    pure (b :: bs)

def each {α β : Type} (build : α → Building β) : List α → Building (List β)
  | [] => pure []
  | a :: as => do
    let b ← build a
    let bs ← each build as
    pure (b :: bs)

def optional {α β : Type} (build : α → Building β) : Option α → Building (Option β)
  | none => pure none
  | some a => do
    let b ← build a
    pure (some b)

end Building

end InterfaceCatalog
