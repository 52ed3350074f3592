import InterfaceCatalog.Catalog.Draft
import InterfaceCatalog.Expression.Parser
import InterfaceCatalog.Source.Syntax
import InterfaceCatalog.Text.Case
import InterfaceCatalog.Text.Qualified

namespace InterfaceCatalog

/-- The type that a file may name without defining it. -/
def undefinedTypeName : String := "__undefined_type"

namespace Building

/-- The file of an import. Types files go before interface files. -/
def importedFile? (s : Site) (name : String) : Option String :=
  [name ++ "." ++ s.settings.typesExtension, name ++ "." ++ s.settings.interfaceExtension].find?
    s.isScanned

def importFile (s : Site) (name : String) : Building Unit :=
  match importedFile? s name with
  | none => fail (.unknownFile name)
  | some file => load s file

def classFile (s : Site) (name : String) : String :=
  toSmalls (cSpelling name) ++ "." ++ s.settings.interfaceExtension

def resolveClass (s : Site) (name : String) : Building (Id .classes) := do
  match (← registry).classes.find? name with
  | some entry => pure entry.id
  | none =>
    if s.isScanned (classFile s name) then
      load s (classFile s name)
      match (← registry).classes.find? name with
      | some entry => pure entry.id
      | none => fail (.unresolvedClass name)
    else fail (.unresolvedClass name)

structure TypeMeaning where
  kind : TypeKind
  builtin : Builtin
  typedecl : Option (Id .typedecls)
  classId : Option (Id .classes)

/-- A class that is meant as a type and not found is an unknown type. -/
def resolveTypeClass (s : Site) (name : String) : Building (Id .classes) := fun d =>
  match resolveClass s name d with
  | .error (.unresolvedClass _) d => .error (.unresolvedType name) d
  | result => result

def typeMeaning (s : Site) (name : String) : Building TypeMeaning := do
  if name = "void" then pure ⟨.void, .void, none, none⟩
  else if name = undefinedTypeName then pure ⟨.undefined, .invalid, none, none⟩
  else
    match Builtin.ofName? name with
    | some builtin => pure ⟨.regular, builtin, none, none⟩
    | none =>
      match (← registry).typedecl? name with
      | some id => pure ⟨.regular, .invalid, some id, none⟩
      | none =>
        let id ← resolveTypeClass s name
        pure ⟨.classType, .invalid, none, some id⟩

mutual

/-- Stores a type, linked to the type behind it in a list of parameters. -/
def resolveTypeBefore (s : Site) (next : Option (Id .types)) : TypeSource → Building (Id .types)
  | .named name qualifiers freeFunction params => do
    let meaning ← typeMeaning s name
    let expected := meaning.builtin.parameterCount
    if params.length ≠ expected then
      fail (.invalidType name (.parameterCount expected params.length))
    let firstParameter ← resolveParameters s params
    insert (t := .types) {
      fullName := name, file := s.file, kind := meaning.kind, builtin := meaning.builtin, qualifiers
      freeFunction, firstParameter, next, typedecl := meaning.typedecl, classId := meaning.classId }

/-- Stores a chain of types from its end, and gives its first one. -/
def resolveParameters (s : Site) : List TypeSource → Building (Option (Id .types))
  | [] => pure none
  | param :: params => do
    let next ← resolveParameters s params
    let id ← resolveTypeBefore s next param
    pure (some id)

end

def resolveType (s : Site) (source : TypeSource) : Building (Id .types) :=
  resolveTypeBefore s none source

def storeDocumentation (source : DocumentationSource) : Building (Id .documentation) :=
  insert (t := .documentation) ⟨source.summary, source.description, source.since⟩

def documentation (source : Option DocumentationSource) : Building (Option (Id .documentation)) :=
  optional storeDocumentation source

def storeTree : Tree → Building (Id .expressions)
  | .literal l => insert (t := .expressions) (.literal l)
  | .unary o t => do
    let operand ← storeTree t
    insert (t := .expressions) (.unary o operand)
  | .binary o t u => do
    let lhs ← storeTree t
    let rhs ← storeTree u
    insert (t := .expressions) (.binary o lhs rhs)

def storeExpression (s : Site) (text : String) : Building (Id .expressions) :=
  match Tree.parse text with
  | .ok tree => storeTree tree
  | .error fault => fail (.expression text s.file fault)

end Building

end InterfaceCatalog
