import InterfaceCatalog.Arena
import InterfaceCatalog.Expression.Tree
import InterfaceCatalog.Model.Kind

namespace InterfaceCatalog

inductive Table where
  | classes | parts | constructors | events | functions | parameters | implements
      | types | typedecls
  | structFields | enumFields | expressions | variables | declarations | documentation
  deriving DecidableEq

def Table.all : List Table :=
  [.classes, .parts, .constructors, .events, .functions, .parameters, .implements,
    .types, .typedecls, .structFields, .enumFields, .expressions, .variables, .declarations,
    .documentation]

def Table.text : Table → String
  | .classes => "class"
  | .parts => "part"
  | .constructors => "constructor"
  | .events => "event"
  | .functions => "function"
  | .parameters => "parameter"
  | .implements => "implement"
  | .types => "type"
  | .typedecls => "typedecl"
  | .structFields => "struct field"
  | .enumFields => "enum field"
  | .expressions => "expression"
  | .variables => "variable"
  | .declarations => "declaration"
  | .documentation => "documentation"

structure Id (t : Table) where
  handle : Handle
  deriving DecidableEq

structure DocumentationRecord where
  summary : String
  description : Option String
  since : Option String
  deriving DecidableEq

inductive ExpressionRecord where
  | literal (l : Literal)
  | unary (operator : UnaryOperator) (operand : Id .expressions)
  | binary (operator : BinaryOperator) (lhs rhs : Id .expressions)
  deriving DecidableEq

/-- A use of a type. Its parameters are a chain: the first one, and from each one the next. -/
structure TypeRecord where
  fullName : String
  file : String
  kind : TypeKind
  builtin : Builtin
  qualifiers : Qualifiers
  freeFunction : Option String
  firstParameter : Option (Id .types)
  next : Option (Id .types)
  typedecl : Option (Id .typedecls)
  classId : Option (Id .classes)
  deriving DecidableEq

structure StructFieldRecord where
  name : String
  type : Id .types
  documentation : Option (Id .documentation)
  deriving DecidableEq

structure EnumFieldRecord where
  name : String
  typedecl : Id .typedecls
  value : Id .expressions
  isExplicit : Bool
  documentation : Option (Id .documentation)
  deriving DecidableEq

structure TypedeclRecord where
  fullName : String
  file : String
  kind : TypedeclKind
  isExtern : Bool := false
  freeFunction : Option String := none
  documentation : Option (Id .documentation) := none
  structFields : List (Id .structFields) := []
  enumFields : List (Id .enumFields) := []
  legacyPrefix : Option String := none
  base : Option (Id .types) := none
  function : Option (Id .functions) := none
  deriving DecidableEq

structure ParameterRecord where
  name : String
  direction : Direction
  type : Id .types
  default : Option (Id .expressions)
  documentation : Option (Id .documentation)
  nonull : Bool
  nullable : Bool
  isOptional : Bool
  deriving DecidableEq

/-- The result of a function as one of its accessors gives it. -/
structure ReturnRecord where
  type : Option (Id .types) := none
  default : Option (Id .expressions) := none
  documentation : Option (Id .documentation) := none
  warnUnused : Bool := false
  deriving DecidableEq

/-- The body of a method, or one side of a property. -/
structure AccessorRecord where
  scope : Scope := .publicScope
  result : ReturnRecord := {}
  legacy : Option String := none
  legacyOnly : Bool := false
  keys : List (Id .parameters) := []
  values : List (Id .parameters) := []
  deriving DecidableEq

structure FunctionRecord where
  name : String
  classId : Option (Id .classes)
  kind : FunctionKind
  isClass : Bool
  isBeta : Bool
  objectIsConst : Bool
  parameters : List (Id .parameters)
  method : Option AccessorRecord
  getter : Option AccessorRecord
  setter : Option AccessorRecord
  implement : Option (Id .implements)
  deriving DecidableEq

structure ImplementFlags where
  auto : Bool := false
  empty : Bool := false
  pureVirtual : Bool := false
  deriving DecidableEq

structure ImplementRecord where
  fullName : String
  classId : Id .classes
  implementingClass : Id .classes
  function : Id .functions
  coversGetter : Bool
  coversSetter : Bool
  getter : ImplementFlags
  setter : ImplementFlags
  documentation : Option (Id .documentation)
  getterDocumentation : Option (Id .documentation)
  setterDocumentation : Option (Id .documentation)
  deriving DecidableEq

structure PartRecord where
  name : String
  classId : Id .classes
  documentation : Option (Id .documentation)
  deriving DecidableEq

structure ConstructorRecord where
  fullName : String
  classId : Id .classes
  function : Id .functions
  isOptional : Bool
  deriving DecidableEq

structure EventRecord where
  name : String
  classId : Id .classes
  type : Option (Id .types)
  documentation : Option (Id .documentation)
  scope : Scope
  isBeta : Bool
  isHot : Bool
  isRestart : Bool
  deriving DecidableEq

structure ClassRecord where
  fullName : String
  file : String
  kind : ClassKind
  documentation : Option (Id .documentation) := none
  legacyPrefix : Option String := none
  eoPrefix : Option String := none
  eventPrefix : Option String := none
  dataType : Option String := none
  enablesConstructor : Bool := false
  enablesDestructor : Bool := false
  inherits : List (Id .classes) := []
  functions : List (Id .functions) := []
  implements : List (Id .implements) := []
  constructors : List (Id .constructors) := []
  events : List (Id .events) := []
  parts : List (Id .parts) := []
  deriving DecidableEq

structure VariableRecord where
  fullName : String
  file : String
  kind : VariableKind
  type : Id .types
  value : Option (Id .expressions)
  isExtern : Bool
  documentation : Option (Id .documentation)
  deriving DecidableEq

inductive DeclarationTarget where
  | classTarget (id : Id .classes)
  | typedeclTarget (id : Id .typedecls)
  | variableTarget (id : Id .variables)
  deriving DecidableEq

structure DeclarationRecord where
  fullName : String
  file : String
  kind : DeclarationKind
  target : DeclarationTarget
  deriving DecidableEq

@[reducible] def Record : Table → Type
  | .classes => ClassRecord
  | .parts => PartRecord
  | .constructors => ConstructorRecord
  | .events => EventRecord
  | .functions => FunctionRecord
  | .parameters => ParameterRecord
  | .implements => ImplementRecord
  | .types => TypeRecord
  | .typedecls => TypedeclRecord
  | .structFields => StructFieldRecord
  | .enumFields => EnumFieldRecord
  | .expressions => ExpressionRecord
  | .variables => VariableRecord
  | .declarations => DeclarationRecord
  | .documentation => DocumentationRecord

structure Store where
  classes : Arena ClassRecord := .empty
  parts : Arena PartRecord := .empty
  constructors : Arena ConstructorRecord := .empty
  events : Arena EventRecord := .empty
  functions : Arena FunctionRecord := .empty
  parameters : Arena ParameterRecord := .empty
  implements : Arena ImplementRecord := .empty
  types : Arena TypeRecord := .empty
  typedecls : Arena TypedeclRecord := .empty
  structFields : Arena StructFieldRecord := .empty
  enumFields : Arena EnumFieldRecord := .empty
  expressions : Arena ExpressionRecord := .empty
  «variables» : Arena VariableRecord := .empty
  declarations : Arena DeclarationRecord := .empty
  documentation : Arena DocumentationRecord := .empty

namespace Store

def arena (s : Store) : (t : Table) → Arena (Record t)
  | .classes => s.classes
  | .parts => s.parts
  | .constructors => s.constructors
  | .events => s.events
  | .functions => s.functions
  | .parameters => s.parameters
  | .implements => s.implements
  | .types => s.types
  | .typedecls => s.typedecls
  | .structFields => s.structFields
  | .enumFields => s.enumFields
  | .expressions => s.expressions
  | .variables => s.variables
  | .declarations => s.declarations
  | .documentation => s.documentation

def setArena (s : Store) : (t : Table) → Arena (Record t) → Store
  | .classes, a => { s with classes := a }
  | .parts, a => { s with parts := a }
  | .constructors, a => { s with constructors := a }
  | .events, a => { s with events := a }
  | .functions, a => { s with functions := a }
  | .parameters, a => { s with parameters := a }
  | .implements, a => { s with implements := a }
  | .types, a => { s with types := a }
  | .typedecls, a => { s with typedecls := a }
  | .structFields, a => { s with structFields := a }
  | .enumFields, a => { s with enumFields := a }
  | .expressions, a => { s with expressions := a }
  | .variables, a => { s with «variables» := a }
  | .declarations, a => { s with declarations := a }
  | .documentation, a => { s with documentation := a }

@[simp] theorem arena_setArena_self (s : Store) (t : Table) (a : Arena (Record t)) :
    (s.setArena t a).arena t = a := by
  cases t <;> rfl

theorem arena_setArena_of_ne (s : Store) {t u : Table} (a : Arena (Record t)) (h : t ≠ u) :
    (s.setArena t a).arena u = s.arena u := by
  cases t <;> cases u <;> first | rfl | exact absurd rfl h

def get? (s : Store) {t : Table} (id : Id t) : Option (Record t) :=
  (s.arena t).get? id.handle

def next (s : Store) (t : Table) : Id t :=
  ⟨(s.arena t).next⟩

def insert (s : Store) {t : Table} (record : Record t) : Store :=
  s.setArena t ((s.arena t).insert record)

def modify (s : Store) {t : Table} (id : Id t) (f : Record t → Record t) : Store :=
  s.setArena t ((s.arena t).modify id.handle f)

def remove (s : Store) {t : Table} (id : Id t) : Store :=
  s.setArena t ((s.arena t).remove id.handle)

end Store

end InterfaceCatalog
