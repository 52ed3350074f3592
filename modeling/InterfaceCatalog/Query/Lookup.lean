import InterfaceCatalog.Catalog.Basic

namespace InterfaceCatalog

namespace Heading

def fullName : (h : Heading) → Record h.table → String
  | .classes, r => ClassRecord.fullName r
  | .structs, r | .enums, r | .aliases, r => TypedeclRecord.fullName r
  | .constants, r | .globals, r => VariableRecord.fullName r
  | .declarations, r => DeclarationRecord.fullName r

/-- The file that declares what is listed. -/
def file : (h : Heading) → Record h.table → String
  | .classes, r => ClassRecord.file r
  | .structs, r | .enums, r | .aliases, r => TypedeclRecord.file r
  | .constants, r | .globals, r => VariableRecord.file r
  | .declarations, r => DeclarationRecord.file r

end Heading

namespace Catalog

/-- The unit of a file: the scope of what the file declares, if it is parsed. -/
def unit? (c : Catalog) (file : String) : Option (Option String) :=
  if c.isParsed file then some (some file) else none

def findNamed? (c : Catalog) (h : Heading) (scope : Option String) (name : String) :
    Option (View h.table) :=
  match (c.registry.index h).find? name with
  | none => none
  | some entry => if scope.all (· = entry.file) then c.view? entry.id else none

/-- The things of one file, none if the file is outside of the scope. -/
def listFile (c : Catalog) (h : Heading) (scope : Option String) (file : String) :
    List (View h.table) :=
  if scope.all (· = file) then c.views ((c.registry.index h).inFile file) else []

def listAll (c : Catalog) (h : Heading) (scope : Option String) : List (View h.table) :=
  match scope with
  | some file => c.views ((c.registry.index h).inFile file)
  | none => c.views (c.registry.index h).all

def classOfFile? (c : Catalog) (scope : Option String) (file : String) : Option (View .classes) :=
  (c.listFile .classes scope file).head?

def enumFields (c : Catalog) (r : TypedeclRecord) : List (View .enumFields) :=
  c.views r.enumFields

def enumField? (c : Catalog) (r : TypedeclRecord) (name : String) : Option (View .enumFields) :=
  (c.enumFields r).find? fun f => f.record.name = name

def structFields (c : Catalog) (r : TypedeclRecord) : List (View .structFields) :=
  c.views r.structFields

def structField? (c : Catalog) (r : TypedeclRecord) (name : String) :
    Option (View .structFields) :=
  (c.structFields r).find? fun f => f.record.name = name

/-- The value of an enum field; that of an implicit field only if it is forced. -/
def enumFieldValue? (c : Catalog) (r : EnumFieldRecord) (force : Bool) :
    Option (View .expressions) :=
  if r.isExplicit || force then c.view? r.value else none

end Catalog

end InterfaceCatalog
