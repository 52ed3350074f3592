import InterfaceCatalog.Model.Kind

namespace InterfaceCatalog

structure DocumentationSource where
  summary : String := ""
  description : Option String := none
  since : Option String := none
  deriving DecidableEq

inductive TypeSource where
  | named (name : String) (qualifiers : Qualifiers) (freeFunction : Option String)
    (params : List TypeSource)

namespace TypeSource

def name : TypeSource → String
  | named n _ _ _ => n

def qualifiers : TypeSource → Qualifiers
  | named _ q _ _ => q

def freeFunction : TypeSource → Option String
  | named _ _ f _ => f

def params : TypeSource → List TypeSource
  | named _ _ _ ps => ps

/-- The type of a file that writes none. -/
def unnamed : TypeSource := named "" ⟨false, false, false⟩ none []

end TypeSource

structure StructFieldSource where
  name : String := ""
  type : TypeSource := .unnamed
  documentation : Option DocumentationSource := none

structure StructSource where
  name : String := ""
  isOpaque : Bool := false
  isExtern : Bool := false
  freeFunction : Option String := none
  documentation : Option DocumentationSource := none
  fields : List StructFieldSource := []

structure EnumFieldSource where
  name : String := ""
  value : Option String := none
  documentation : Option DocumentationSource := none

structure EnumSource where
  name : String := ""
  isExtern : Bool := false
  legacy : Option String := none
  documentation : Option DocumentationSource := none
  fields : List EnumFieldSource := []

structure AliasSource where
  name : String := ""
  isExtern : Bool := false
  freeFunction : Option String := none
  documentation : Option DocumentationSource := none
  type : TypeSource := .unnamed

structure ReturnSource where
  type : TypeSource := .unnamed
  default : Option String := none
  documentation : Option DocumentationSource := none
  warnUnused : Bool := false

structure ParameterSource where
  name : String := ""
  direction : Direction := .input
  type : TypeSource := .unnamed
  default : Option String := none
  documentation : Option DocumentationSource := none
  nonull : Bool := false
  nullable : Bool := false
  isOptional : Bool := false

structure FunctionPointerSource where
  name : String := ""
  isExtern : Bool := false
  documentation : Option DocumentationSource := none
  result : Option ReturnSource := none
  parameters : List ParameterSource := []

structure VariableSource where
  name : String := ""
  type : TypeSource := .unnamed
  value : Option String := none
  isExtern : Bool := false
  documentation : Option DocumentationSource := none

structure MethodSource where
  name : String := ""
  scope : Scope := .publicScope
  isClass : Bool := false
  beta : Bool := false
  objectIsConst : Bool := false
  pureVirtual : Bool := false
  legacy : Option String := none
  legacyOnly : Bool := false
  documentation : Option DocumentationSource := none
  result : Option ReturnSource := none
  parameters : List ParameterSource := []

/-- A getter or setter. Its own keys and values replace those of the property. -/
structure AccessorSource where
  scope : Scope := .publicScope
  objectIsConst : Bool := false
  pureVirtual : Bool := false
  legacy : Option String := none
  legacyOnly : Bool := false
  documentation : Option DocumentationSource := none
  result : Option ReturnSource := none
  keys : Option (List ParameterSource) := none
  values : Option (List ParameterSource) := none

structure PropertySource where
  name : String := ""
  isClass : Bool := false
  beta : Bool := false
  documentation : Option DocumentationSource := none
  keys : List ParameterSource := []
  values : List ParameterSource := []
  getter : Option AccessorSource := none
  setter : Option AccessorSource := none

structure EventSource where
  name : String := ""
  type : Option TypeSource := none
  scope : Scope := .publicScope
  beta : Bool := false
  hot : Bool := false
  restart : Bool := false
  documentation : Option DocumentationSource := none

structure PartSource where
  name : String := ""
  className : String := ""
  documentation : Option DocumentationSource := none

structure ImplementSource where
  name : String := ""
  getter : Bool := false
  setter : Bool := false
  auto : Bool := false
  empty : Bool := false
  pureVirtual : Bool := false
  documentation : Option DocumentationSource := none
  getterDocumentation : Option DocumentationSource := none
  setterDocumentation : Option DocumentationSource := none

structure ConstructorSource where
  name : String := ""
  isOptional : Bool := false

structure ClassSource where
  name : String := ""
  kind : ClassKind := .regular
  documentation : Option DocumentationSource := none
  legacyPrefix : Option String := none
  eoPrefix : Option String := none
  eventPrefix : Option String := none
  dataType : Option String := none
  inherits : List String := []
  methods : List MethodSource := []
  properties : List PropertySource := []
  events : List EventSource := []
  parts : List PartSource := []
  implements : List ImplementSource := []
  constructors : List ConstructorSource := []

structure FileSource where
  imports : List String := []
  declaredClass : Option ClassSource := none
  structs : List StructSource := []
  enums : List EnumSource := []
  aliases : List AliasSource := []
  functionPointers : List FunctionPointerSource := []
  constants : List VariableSource := []
  globals : List VariableSource := []

end InterfaceCatalog
