import InterfaceCatalog.Catalog.Registry
import InterfaceCatalog.Source.Syntax

namespace InterfaceCatalog

/-- A change that a build makes to a catalog: a new record or a new name. -/
inductive Change where
  | inserted (t : Table) (id : Id t)
  | registered (h : Heading) (name : String)
  deriving DecidableEq

structure Build where
  file : String
  source : FileSource
  /-- The files that its imports stand for. -/
  imports : List String
  /-- The files that were being built around it, innermost first. -/
  outer : List String
  /-- The files that were parsed while it went on. -/
  inner : List String
  /-- Its changes, newest first. -/
  journal : List Change

/-- The builds stand in the order in which they ended. -/
structure Catalog where
  store : Store := {}
  registry : Registry := {}
  builds : List Build := []

structure View (t : Table) where
  id : Id t
  record : Record t

def View.text {t : Table} (v : View t) : String :=
  s!"View<{t.text}>({v.id.handle.text})"

namespace Catalog

def get? (c : Catalog) {t : Table} (id : Id t) : Option (Record t) :=
  c.store.get? id

def view? (c : Catalog) {t : Table} (id : Id t) : Option (View t) :=
  (c.get? id).map fun record => ⟨id, record⟩

def optionView? (c : Catalog) {t : Table} (id : Option (Id t)) : Option (View t) :=
  id.bind c.view?

/-- The live ones among a row of records, in order. -/
def views (c : Catalog) {t : Table} (ids : List (Id t)) : List (View t) :=
  ids.filterMap c.view?

def insert (c : Catalog) {t : Table} (record : Record t) : Catalog :=
  { c with store := c.store.insert record }

def modify (c : Catalog) {t : Table} (id : Id t) (f : Record t → Record t) : Catalog :=
  { c with store := c.store.modify id f }

def remove (c : Catalog) {t : Table} (id : Id t) : Catalog :=
  { c with store := c.store.remove id }

def enter (c : Catalog) (h : Heading) (entry : Entry h.table) : Catalog :=
  { c with registry := c.registry.setIndex h ((c.registry.index h).insert entry) }

def strike (c : Catalog) (h : Heading) (name : String) : Catalog :=
  { c with registry := c.registry.setIndex h ((c.registry.index h).remove name) }

def parsed (c : Catalog) : List String :=
  c.builds.map Build.file

def isParsed (c : Catalog) (file : String) : Bool :=
  c.parsed.contains file

end Catalog

def invalidHandleMessage (t : Table) (h : Handle) : String :=
  s!"the {t.text} handle {h.text} is invalid or stale"

end InterfaceCatalog
