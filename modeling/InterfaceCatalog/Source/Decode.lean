import InterfaceCatalog.Datum.Basic
import InterfaceCatalog.Source.Syntax
import InterfaceCatalog.Source.Word

namespace InterfaceCatalog

namespace Fields

def text? (fields : Fields) (name fallback : String) : Option String :=
  fields.get? name Datum.text? fallback

def flag? (fields : Fields) (name : String) : Option Bool :=
  fields.get? name Datum.bool? false

def optional? (fields : Fields) (name : String) (read : Datum → Option α) : Option (Option α) :=
  fields.get? name (Datum.optional? read) none

def optionalText? (fields : Fields) (name : String) : Option (Option String) :=
  fields.optional? name Datum.text?

def list? (fields : Fields) (name : String) (read : Datum → Option α) : Option (List α) :=
  fields.get? name (Datum.each? read) []

end Fields

def DocumentationSource.ofDatum? (d : Datum) : Option DocumentationSource := do
  let fields ← d.fields? "DocumentationSyntax"
  return {
    summary := ← fields.text? "summary" ""
    description := ← fields.optionalText? "description"
    since := ← fields.optionalText? "since" }

def Fields.documentation? (fields : Fields) : Option (Option DocumentationSource) :=
  fields.optional? "documentation" DocumentationSource.ofDatum?

namespace TypeSource

def ofFields? (fields : Fields) (paramLists : List (List TypeSource)) : Option TypeSource := do
  let name ← fields.text? "name" ""
  let owned ← fields.flag? "owned"
  let isConst ← fields.flag? "const"
  let ptr ← fields.flag? "ptr"
  let freeFunction ← fields.optionalText? "free_func"
  match paramLists with
  | [] => return named name ⟨owned, isConst, ptr⟩ freeFunction []
  | [params] => return named name ⟨owned, isConst, ptr⟩ freeFunction params
  | _ => none

mutual

def ofDatum? : Datum → Option TypeSource
  | .record kind fields =>
    if kind.all (· = "TypeSyntax") then
      match paramsOf? fields with
      | none => none
      | some paramLists => ofFields? fields paramLists
    else none
  | _ => none

def paramsOf? : Fields → Option (List (List TypeSource))
  | [] => some []
  | (name, d) :: fields =>
    match paramsOf? fields with
    | none => none
    | some rest =>
      if name = "params" then (ofList? d).map (· :: rest) else some rest

def ofList? : Datum → Option (List TypeSource)
  | .list items => ofItems? items
  | _ => none

def ofItems? : List Datum → Option (List TypeSource)
  | [] => some []
  | d :: ds =>
    match ofDatum? d, ofItems? ds with
    | some type, some types => some (type :: types)
    | _, _ => none

end

end TypeSource

def Fields.type? (fields : Fields) : Option TypeSource :=
  fields.get? "type" TypeSource.ofDatum? .unnamed

def StructFieldSource.ofDatum? (d : Datum) : Option StructFieldSource := do
  let fields ← d.fields? "StructFieldSyntax"
  return {
    name := ← fields.text? "name" ""
    type := ← fields.type?
    documentation := ← fields.documentation? }

def StructSource.ofDatum? (d : Datum) : Option StructSource := do
  let fields ← d.fields? "StructSyntax"
  return {
    name := ← fields.text? "name" ""
    isOpaque := ← fields.flag? "opaque"
    isExtern := ← fields.flag? "extern"
    freeFunction := ← fields.optionalText? "free_func"
    documentation := ← fields.documentation?
    fields := ← fields.list? "fields" StructFieldSource.ofDatum? }

def EnumFieldSource.ofDatum? (d : Datum) : Option EnumFieldSource := do
  let fields ← d.fields? "EnumFieldSyntax"
  return {
    name := ← fields.text? "name" ""
    value := ← fields.optionalText? "value"
    documentation := ← fields.documentation? }

def EnumSource.ofDatum? (d : Datum) : Option EnumSource := do
  let fields ← d.fields? "EnumSyntax"
  return {
    name := ← fields.text? "name" ""
    isExtern := ← fields.flag? "extern"
    legacy := ← fields.optionalText? "legacy"
    documentation := ← fields.documentation?
    fields := ← fields.list? "fields" EnumFieldSource.ofDatum? }

def AliasSource.ofDatum? (d : Datum) : Option AliasSource := do
  let fields ← d.fields? "AliasSyntax"
  return {
    name := ← fields.text? "name" ""
    isExtern := ← fields.flag? "extern"
    freeFunction := ← fields.optionalText? "free_func"
    documentation := ← fields.documentation?
    type := ← fields.type? }

def ReturnSource.ofDatum? (d : Datum) : Option ReturnSource := do
  let fields ← d.fields? "ReturnSyntax"
  return {
    type := ← fields.type?
    default := ← fields.optionalText? "default"
    documentation := ← fields.documentation?
    warnUnused := ← fields.flag? "warn_unused" }

def ParameterSource.ofDatum? (d : Datum) : Option ParameterSource := do
  let fields ← d.fields? "ParameterSyntax"
  return {
    name := ← fields.text? "name" ""
    direction := ← fields.get? "direction" (fun d => d.word? >>= Direction.ofWord?) .input
    type := ← fields.type?
    default := ← fields.optionalText? "default"
    documentation := ← fields.documentation?
    nonull := ← fields.flag? "nonull"
    nullable := ← fields.flag? "nullable"
    isOptional := ← fields.flag? "optional" }

def Fields.result? (fields : Fields) : Option (Option ReturnSource) :=
  fields.optional? "return" ReturnSource.ofDatum?

def Fields.scope? (fields : Fields) : Option Scope :=
  fields.get? "scope" (fun d => d.word? >>= Scope.ofWord?) .publicScope

def FunctionPointerSource.ofDatum? (d : Datum) : Option FunctionPointerSource := do
  let fields ← d.fields? "FunctionPointerSyntax"
  return {
    name := ← fields.text? "name" ""
    isExtern := ← fields.flag? "extern"
    documentation := ← fields.documentation?
    result := ← fields.result?
    parameters := ← fields.list? "parameters" ParameterSource.ofDatum? }

def VariableSource.ofDatum? (d : Datum) : Option VariableSource := do
  let fields ← d.fields? "VariableSyntax"
  return {
    name := ← fields.text? "name" ""
    type := ← fields.type?
    value := ← fields.optionalText? "value"
    isExtern := ← fields.flag? "extern"
    documentation := ← fields.documentation? }

def MethodSource.ofDatum? (d : Datum) : Option MethodSource := do
  let fields ← d.fields? "MethodSyntax"
  return {
    name := ← fields.text? "name" ""
    scope := ← fields.scope?
    isClass := ← fields.flag? "class"
    beta := ← fields.flag? "beta"
    objectIsConst := ← fields.flag? "const"
    pureVirtual := ← fields.flag? "pure_virtual"
    legacy := ← fields.optionalText? "legacy"
    legacyOnly := ← fields.flag? "legacy_only"
    documentation := ← fields.documentation?
    result := ← fields.result?
    parameters := ← fields.list? "parameters" ParameterSource.ofDatum? }

def AccessorSource.ofDatum? (d : Datum) : Option AccessorSource := do
  let fields ← d.fields? "AccessorSyntax"
  return {
    scope := ← fields.scope?
    objectIsConst := ← fields.flag? "const"
    pureVirtual := ← fields.flag? "pure_virtual"
    legacy := ← fields.optionalText? "legacy"
    legacyOnly := ← fields.flag? "legacy_only"
    documentation := ← fields.documentation?
    result := ← fields.result?
    keys := ← fields.optional? "keys" (Datum.each? ParameterSource.ofDatum?)
    values := ← fields.optional? "values" (Datum.each? ParameterSource.ofDatum?) }

def PropertySource.ofDatum? (d : Datum) : Option PropertySource := do
  let fields ← d.fields? "PropertySyntax"
  return {
    name := ← fields.text? "name" ""
    isClass := ← fields.flag? "class"
    beta := ← fields.flag? "beta"
    documentation := ← fields.documentation?
    keys := ← fields.list? "keys" ParameterSource.ofDatum?
    values := ← fields.list? "values" ParameterSource.ofDatum?
    getter := ← fields.optional? "get" AccessorSource.ofDatum?
    setter := ← fields.optional? "set" AccessorSource.ofDatum? }

def EventSource.ofDatum? (d : Datum) : Option EventSource := do
  let fields ← d.fields? "EventSyntax"
  return {
    name := ← fields.text? "name" ""
    type := ← fields.optional? "type" TypeSource.ofDatum?
    scope := ← fields.scope?
    beta := ← fields.flag? "beta"
    hot := ← fields.flag? "hot"
    restart := ← fields.flag? "restart"
    documentation := ← fields.documentation? }

def PartSource.ofDatum? (d : Datum) : Option PartSource := do
  let fields ← d.fields? "PartSyntax"
  return {
    name := ← fields.text? "name" ""
    className := ← fields.text? "class" ""
    documentation := ← fields.documentation? }

def ImplementSource.ofDatum? (d : Datum) : Option ImplementSource := do
  let fields ← d.fields? "ImplementSyntax"
  return {
    name := ← fields.text? "name" ""
    getter := ← fields.flag? "get"
    setter := ← fields.flag? "set"
    auto := ← fields.flag? "auto"
    empty := ← fields.flag? "empty"
    pureVirtual := ← fields.flag? "pure_virtual"
    documentation := ← fields.documentation?
    getterDocumentation := ← fields.optional? "get_documentation" DocumentationSource.ofDatum?
    setterDocumentation := ← fields.optional? "set_documentation" DocumentationSource.ofDatum? }

def ConstructorSource.ofDatum? (d : Datum) : Option ConstructorSource := do
  let fields ← d.fields? "ConstructorSyntax"
  return { name := ← fields.text? "name" "", isOptional := ← fields.flag? "optional" }

def ClassSource.ofDatum? (d : Datum) : Option ClassSource := do
  let fields ← d.fields? "ClassSyntax"
  return {
    name := ← fields.text? "name" ""
    kind := ← fields.get? "type" (fun d => d.word? >>= ClassKind.ofWord?) .regular
    documentation := ← fields.documentation?
    legacyPrefix := ← fields.optionalText? "legacy_prefix"
    eoPrefix := ← fields.optionalText? "eo_prefix"
    eventPrefix := ← fields.optionalText? "event_prefix"
    dataType := ← fields.optionalText? "data_type"
    inherits := ← fields.list? "inherits" Datum.text?
    methods := ← fields.list? "methods" MethodSource.ofDatum?
    properties := ← fields.list? "properties" PropertySource.ofDatum?
    events := ← fields.list? "events" EventSource.ofDatum?
    parts := ← fields.list? "parts" PartSource.ofDatum?
    implements := ← fields.list? "implements" ImplementSource.ofDatum?
    constructors := ← fields.list? "constructors" ConstructorSource.ofDatum? }

def FileSource.ofDatum? (d : Datum) : Option FileSource := do
  let fields ← d.fields? "FileSyntax"
  return {
    imports := ← fields.list? "imports" Datum.text?
    declaredClass := ← fields.optional? "class" ClassSource.ofDatum?
    structs := ← fields.list? "structs" StructSource.ofDatum?
    enums := ← fields.list? "enums" EnumSource.ofDatum?
    aliases := ← fields.list? "aliases" AliasSource.ofDatum?
    functionPointers := ← fields.list? "function_pointers" FunctionPointerSource.ofDatum?
    constants := ← fields.list? "constants" VariableSource.ofDatum?
    globals := ← fields.list? "globals" VariableSource.ofDatum? }

end InterfaceCatalog
