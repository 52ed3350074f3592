import InterfaceCatalog.Catalog.Typedecl
import InterfaceCatalog.Query.Function
import InterfaceCatalog.Query.Inheritance

namespace InterfaceCatalog

namespace Building

/-- Stores a function and the implement that its own class gives it. -/
def storeFunction (function : FunctionRecord)
    (implement : Id .functions → Building ImplementRecord) :
    Building (Id .functions × Id .implements) := do
  let id ← insert (t := .functions) function
  let implementId ← insert (t := .implements) (← implement id)
  modify (t := .functions) id fun r => { r with implement := some implementId }
  pure (id, implementId)

def storeMethod (s : Site) (classId : Id .classes) (className : String) (source : MethodSource) :
    Building (Id .functions × Id .implements) := do
  let fullName := className ++ "." ++ source.name
  let parameters ← storeParameters s fullName source.parameters
  let result ← storeReturn s source.result
  storeFunction
    { name := source.name, classId := some classId, kind := .method, isClass := source.isClass
      isBeta := source.beta, objectIsConst := source.objectIsConst, parameters
      method := some {
        scope := source.scope, result, legacy := source.legacy, legacyOnly := source.legacyOnly }
      getter := none, setter := none, implement := none }
    fun function => do
      let documentation ← documentation source.documentation
      pure {
        fullName, classId, implementingClass := classId, function
        coversGetter := false, coversSetter := false
        getter := { pureVirtual := source.pureVirtual }, setter := {}
        documentation, getterDocumentation := none, setterDocumentation := none }

def parametersOr (s : Site) (owner : String) (inherited : List (Id .parameters)) :
    Option (List ParameterSource) → Building (List (Id .parameters))
  | some own => storeParameters s owner own
  | none => pure inherited

/-- Stores an accessor with its own keys and values, or with those of its property. -/
def storeAccessor (s : Site) (owner : String) (keys values : List (Id .parameters))
    (source : AccessorSource) : Building AccessorRecord := do
  let keys ← parametersOr s owner keys source.keys
  let values ← parametersOr s owner values source.values
  let result ← storeReturn s source.result
  pure {
    scope := source.scope, result, legacy := source.legacy, legacyOnly := source.legacyOnly
    keys, values }

def propertyKind (source : PropertySource) : FunctionKind :=
  match source.getter, source.setter with
  | some _, some _ => .property
  | some _, none => .getter
  | none, _ => .setter

def storeProperty (s : Site) (classId : Id .classes) (className : String)
    (source : PropertySource) : Building (Id .functions × Id .implements) := do
  if source.getter.isNone && source.setter.isNone then fail (.emptyProperty className source.name)
  let fullName := className ++ "." ++ source.name
  let keys ← storeParameters s fullName source.keys
  let values ← storeParameters s fullName source.values
  let getter ← optional (storeAccessor s fullName keys values) source.getter
  let setter ← optional (storeAccessor s fullName keys values) source.setter
  storeFunction
    { name := source.name, classId := some classId, kind := propertyKind source
      isClass := source.isClass, isBeta := source.beta
      objectIsConst := source.getter.any (·.objectIsConst), parameters := [], method := none
      getter, setter, implement := none }
    fun function => do
      let own ← documentation source.documentation
      let getterDocumentation ← documentation (source.getter.bind (·.documentation))
      let setterDocumentation ← documentation (source.setter.bind (·.documentation))
      pure {
        fullName, classId, implementingClass := classId, function
        coversGetter := source.getter.isSome, coversSetter := source.setter.isSome
        getter := { pureVirtual := source.getter.any (·.pureVirtual) }
        setter := { pureVirtual := source.setter.any (·.pureVirtual) }
        documentation := own, getterDocumentation, setterDocumentation }

inductive FunctionSource where
  | method (source : MethodSource)
  | property (source : PropertySource)

def FunctionSource.name : FunctionSource → String
  | method source => source.name
  | property source => source.name

def functionSources (source : ClassSource) : List FunctionSource :=
  source.methods.map .method ++ source.properties.map .property

def storeFunctionSource (s : Site) (classId : Id .classes) (className : String) :
    FunctionSource → Building (Id .functions × Id .implements)
  | .method source => storeMethod s classId className source
  | .property source => storeProperty s classId className source

def storeEvent (s : Site) (classId : Id .classes) (source : EventSource) :
    Building (Id .events) := do
  let type ← optional (resolveType s) source.type
  let documentation ← documentation source.documentation
  insert (t := .events) {
    name := source.name, classId, type, documentation, scope := source.scope
    isBeta := source.beta, isHot := source.hot, isRestart := source.restart }

def storePart (s : Site) (source : PartSource) : Building (Id .parts) := do
  let classId ← resolveClass s source.className
  let documentation ← documentation source.documentation
  insert (t := .parts) ⟨source.name, classId, documentation⟩

/-- The class and the name in a reference to a function. A dot in front means the class itself. -/
def referencedClass (s : Site) (classId : Id .classes) (className reference : String) :
    Building (Id .classes × String) :=
  match reference.toList with
  | '.' :: name => pure (classId, String.ofList name)
  | _ =>
    match splitLast? reference with
    | none => fail (.unknownFunction className reference)
    | some (target, name) => do
      let id ← resolveClass s target
      pure (id, name)

/-- The class and the function that a reference names. The class is the own one or inherited. -/
def resolveMember (s : Site) (classId : Id .classes) (reference : String) :
    Building (Id .classes × Id .functions) := do
  let className := (← fetch (t := .classes) classId).fullName
  let (target, name) ← referencedClass s classId className reference
  let c ← catalog
  match c.view? classId, c.view? target with
  | some own, some declaring =>
    if target ≠ classId && !(c.inheritsFull own).any (·.id = target) then
      fail (.notInherited className declaring.record.fullName)
    match c.function? declaring.record name .unresolved with
    | some function => pure (target, function.id)
    | none => fail (.unknownFunction declaring.record.fullName name)
  | _, _ => fail (.unresolvedClass className)

def memberName (classId : Id .classes) (function : Id .functions) : Building String := do
  let owner ← fetch (t := .classes) classId
  let member ← fetch (t := .functions) function
  pure (owner.fullName ++ "." ++ member.name)

/-- The accessors that an implement covers: none of a method, and of a property those that are
asked for, or all if none is. -/
def coveredAccessors (function : FunctionRecord) (source : ImplementSource) : Bool × Bool :=
  if function.kind = .method then (false, false)
  else if !source.getter && !source.setter then (function.isReadable, function.isWritable)
  else (source.getter, source.setter)

def storeImplement (s : Site) (classId : Id .classes) (source : ImplementSource) :
    Building (Id .implements) := do
  let (target, function) ← resolveMember s classId source.name
  let record ← fetch (t := .functions) function
  let (coversGetter, coversSetter) := coveredAccessors record source
  if (coversGetter && !record.isReadable) || (coversSetter && !record.isWritable) then
    fail (.unknownFunction (← fetch (t := .classes) target).fullName source.name)
  let flags : ImplementFlags := {
    auto := source.auto, empty := source.empty, pureVirtual := source.pureVirtual }
  let fullName ← memberName target function
  let own ← documentation source.documentation
  let getterDocumentation ← documentation source.getterDocumentation
  let setterDocumentation ← documentation source.setterDocumentation
  insert (t := .implements) {
    fullName, classId := target, implementingClass := classId, function
    coversGetter, coversSetter
    getter := if coversSetter && !coversGetter then {} else flags
    setter := if coversSetter then flags else {}
    documentation := own, getterDocumentation, setterDocumentation }

/-- The explicit implements of a class. Two names stand for the class's own constructor and
destructor and only switch these on. -/
def storeImplements (s : Site) (classId : Id .classes) :
    List ImplementSource → Building (List (Id .implements))
  | [] => pure []
  | source :: sources => do
    if source.name = "class.constructor" then
      modify (t := .classes) classId fun r => { r with enablesConstructor := true }
      storeImplements s classId sources
    else if source.name = "class.destructor" then
      modify (t := .classes) classId fun r => { r with enablesDestructor := true }
      storeImplements s classId sources
    else
      let id ← storeImplement s classId source
      let ids ← storeImplements s classId sources
      pure (id :: ids)

def storeConstructor (s : Site) (classId : Id .classes) (source : ConstructorSource) :
    Building (Id .constructors) := do
  let (target, function) ← resolveMember s classId source.name
  let fullName ← memberName target function
  insert (t := .constructors) ⟨fullName, target, function, source.isOptional⟩

end Building

end InterfaceCatalog
