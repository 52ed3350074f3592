import InterfaceCatalog.Catalog.Resolve

namespace InterfaceCatalog

namespace Building

/-- Enters an empty type declaration. `enter` puts it under the heading of its kind. -/
def declareTypedecl (s : Site) (enter : String → Id .typedecls → Building Unit)
    (kind : TypedeclKind) (declared : DeclarationKind) (name : String) :
    Building (Id .typedecls) := do
  checkAvailable name
  let id ← insert (t := .typedecls) { fullName := name, file := s.file, kind }
  enter name id
  declare s name declared (.typedeclTarget id)
  pure id

def storeStructField (s : Site) (source : StructFieldSource) : Building (Id .structFields) := do
  let type ← resolveType s source.type
  let documentation ← documentation source.documentation
  insert (t := .structFields) ⟨source.name, type, documentation⟩

def fillStruct (s : Site) (id : Id .typedecls) (source : StructSource) : Building Unit := do
  if source.isOpaque && !source.fields.isEmpty then fail (.invalidType source.name .opaqueFields)
  let structFields ← distinctly source.name (·.name) (storeStructField s) [] source.fields
  let documentation ← documentation source.documentation
  modify (t := .typedecls) id fun r => { r with
    isExtern := source.isExtern, freeFunction := source.freeFunction, documentation, structFields }

/-- The value of a field without one: the value of the last explicit field plus a distance, or
the distance from the first field on. -/
def implicitValue (anchor : Option (Id .expressions)) (distance : Nat) :
    Building (Id .expressions) := do
  let offset ← insert (t := .expressions) (.literal (.value (.integer (.wrap .int distance))))
  match anchor with
  | none => pure offset
  | some anchor => insert (t := .expressions) (.binary .add anchor offset)

def enumFieldValue (s : Site) (anchor : Option (Id .expressions)) (distance : Nat) :
    Option String → Building (Id .expressions)
  | some text => storeExpression s text
  | none => implicitValue anchor distance

/-- The fields of an enum from one on, where `anchor` is the value of the last explicit field
and `distance` the number of fields since. -/
def storeEnumFields (s : Site) (owner : EnumSource) (typedecl : Id .typedecls) :
    (seen : List String) → (anchor : Option (Id .expressions)) → (distance : Nat) →
    List EnumFieldSource → Building (List (Id .enumFields))
  | _, _, _, [] => pure []
  | seen, anchor, distance, field :: fields => do
    if seen.contains field.name then fail (.duplicateMember owner.name field.name)
    let value ← enumFieldValue s anchor distance field.value
    let documentation ← documentation field.documentation
    let id ← insert (t := .enumFields)
      ⟨field.name, typedecl, value, field.value.isSome, documentation⟩
    let (anchor, distance) :=
      if field.value.isSome then (some value, 1) else (anchor, distance + 1)
    let ids ← storeEnumFields s owner typedecl (field.name :: seen) anchor distance fields
    pure (id :: ids)

def fillEnum (s : Site) (id : Id .typedecls) (source : EnumSource) : Building Unit := do
  let enumFields ← storeEnumFields s source id [] none 0 source.fields
  let documentation ← documentation source.documentation
  modify (t := .typedecls) id fun r => { r with
    isExtern := source.isExtern, documentation, legacyPrefix := source.legacy, enumFields }

def fillAlias (s : Site) (id : Id .typedecls) (source : AliasSource) : Building Unit := do
  let base ← resolveType s source.type
  let documentation ← documentation source.documentation
  modify (t := .typedecls) id fun r => { r with
    isExtern := source.isExtern, freeFunction := source.freeFunction, documentation
    base := some base }

def storeParameter (s : Site) (source : ParameterSource) : Building (Id .parameters) := do
  let type ← resolveType s source.type
  let default ← optional (storeExpression s) source.default
  let documentation ← documentation source.documentation
  insert (t := .parameters) {
    name := source.name, direction := source.direction, type, default, documentation
    nonull := source.nonull, nullable := source.nullable, isOptional := source.isOptional }

def storeParameters (s : Site) (owner : String) (sources : List ParameterSource) :
    Building (List (Id .parameters)) :=
  distinctly owner (·.name) (storeParameter s) [] sources

def storeReturn (s : Site) (source : Option ReturnSource) : Building ReturnRecord := do
  match source with
  | none => pure {}
  | some source =>
    let type ← resolveType s source.type
    let default ← optional (storeExpression s) source.default
    let documentation ← documentation source.documentation
    pure { type := some type, default, documentation, warnUnused := source.warnUnused }

def fillFunctionPointer (s : Site) (id : Id .typedecls) (source : FunctionPointerSource) :
    Building Unit := do
  let parameters ← storeParameters s source.name source.parameters
  let result ← storeReturn s source.result
  let function ← insert (t := .functions) {
    name := source.name, classId := none, kind := .pointer, isClass := false, isBeta := false
    objectIsConst := false, parameters, method := some { result }, getter := none, setter := none
    implement := none }
  let documentation ← documentation source.documentation
  modify (t := .typedecls) id fun r => { r with
    isExtern := source.isExtern, documentation, function := some function }

/-- Enters a variable. The name is checked before its type is resolved, which may load other files,
and once more when `enter` puts it under its heading. -/
def declareVariable (s : Site) (enter : String → Id .variables → Building Unit)
    (kind : VariableKind) (source : VariableSource) : Building Unit := do
  checkAvailable source.name
  let type ← resolveType s source.type
  let value ← optional (storeExpression s) source.value
  let documentation ← documentation source.documentation
  let id ← insert (t := .variables) {
    fullName := source.name, file := s.file, kind, type, value, isExtern := source.isExtern
    documentation }
  enter source.name id
  declare s source.name .variableName (.variableTarget id)

end Building

end InterfaceCatalog
