import InterfaceCatalog.Catalog.Build
import InterfaceCatalog.Proofs.Catalog.Naming

namespace InterfaceCatalog

/-- How records are found. -/
abbrev Lookup := (t : Table) → Id t → Option (Record t)

/-- The full name of a member that a class refers to. A dot in front means the class itself. -/
def memberReference (className reference : String) : String :=
  match reference.toList with
  | '.' :: _ => className ++ reference
  | _ => reference

section

variable (find : Lookup)

def DocumentationSource.StoredAt (source : DocumentationSource) (id : Id .documentation) : Prop :=
  find .documentation id = some ⟨source.summary, source.description, source.since⟩

mutual

/-- A type, in front of the next one in a list of parameters. -/
def TypeSource.StoredBefore : Option (Id .types) → TypeSource → Id .types → Prop
  | next, .named name qualifiers freeFunction params, id =>
    ∃ r : TypeRecord, find .types id = some r ∧ r.fullName = name ∧ r.qualifiers = qualifiers ∧
      r.freeFunction = freeFunction ∧ r.next = next ∧ TypeSource.StoredFrom params r.firstParameter

/-- The parameters of a type, from one on. -/
def TypeSource.StoredFrom : List TypeSource → Option (Id .types) → Prop
  | [], first => first = none
  | param :: params, first =>
    ∃ id next, first = some id ∧ TypeSource.StoredBefore next param id ∧
      TypeSource.StoredFrom params next

end

def TypeSource.StoredAt (source : TypeSource) (id : Id .types) : Prop :=
  source.StoredBefore find none id

def Tree.StoredAt : Tree → Id .expressions → Prop
  | .literal l, id => find .expressions id = some (.literal l)
  | .unary o t, id => ∃ operand, find .expressions id = some (.unary o operand) ∧ t.StoredAt operand
  | .binary o t u, id =>
    ∃ lhs rhs, find .expressions id = some (.binary o lhs rhs) ∧ t.StoredAt lhs ∧ u.StoredAt rhs

/-- An expression is stored as the tree that its text means. -/
def ExpressionStoredAt (text : String) (id : Id .expressions) : Prop :=
  ∃ tree, Tree.parse text = .ok tree ∧ tree.StoredAt find id

def StructFieldSource.StoredAt (source : StructFieldSource) (id : Id .structFields) : Prop :=
  ∃ type documentation, find .structFields id = some ⟨source.name, type, documentation⟩ ∧
    source.type.StoredAt find type ∧
    Option.Rel (DocumentationSource.StoredAt find) source.documentation documentation

def StructSource.StoredAs (file : String) (source : StructSource) (r : TypedeclRecord) : Prop :=
  ∃ documentation structFields,
    r = { fullName := source.name, file, kind := if source.isOpaque then .opaqueStruct else .struct
          isExtern := source.isExtern, freeFunction := source.freeFunction, documentation,
          structFields } ∧
    Option.Rel (DocumentationSource.StoredAt find) source.documentation documentation ∧
    List.Forall₂ (StructFieldSource.StoredAt find) source.fields structFields

/-- The value of a field without one is not written. -/
def EnumFieldSource.StoredAt (owner : Id .typedecls) (source : EnumFieldSource)
    (id : Id .enumFields) : Prop :=
  ∃ value documentation,
    find .enumFields id = some ⟨source.name, owner, value, source.value.isSome, documentation⟩ ∧
    (∀ text ∈ source.value, ExpressionStoredAt find text value) ∧
    Option.Rel (DocumentationSource.StoredAt find) source.documentation documentation

def EnumSource.StoredAs (file : String) (id : Id .typedecls) (source : EnumSource)
    (r : TypedeclRecord) : Prop :=
  ∃ documentation enumFields,
    r = { fullName := source.name, file, kind := .enum, isExtern := source.isExtern, documentation
          legacyPrefix := source.legacy, enumFields } ∧
    Option.Rel (DocumentationSource.StoredAt find) source.documentation documentation ∧
    List.Forall₂ (EnumFieldSource.StoredAt find id) source.fields enumFields

def AliasSource.StoredAs (file : String) (source : AliasSource) (r : TypedeclRecord) : Prop :=
  ∃ documentation base,
    r = { fullName := source.name, file, kind := .alias, isExtern := source.isExtern
          freeFunction := source.freeFunction, documentation, base := some base } ∧
    Option.Rel (DocumentationSource.StoredAt find) source.documentation documentation ∧
    source.type.StoredAt find base

def ParameterSource.StoredAt (source : ParameterSource) (id : Id .parameters) : Prop :=
  ∃ type default documentation,
    find .parameters id = some {
      name := source.name, direction := source.direction, type, default, documentation
      nonull := source.nonull, nullable := source.nullable, isOptional := source.isOptional } ∧
    source.type.StoredAt find type ∧ Option.Rel (ExpressionStoredAt find) source.default default ∧
    Option.Rel (DocumentationSource.StoredAt find) source.documentation documentation

def ReturnSource.StoredAs : Option ReturnSource → ReturnRecord → Prop
  | none, r => r = {}
  | some source, r => ∃ type default documentation,
    r = { type := some type, default, documentation, warnUnused := source.warnUnused } ∧
    source.type.StoredAt find type ∧ Option.Rel (ExpressionStoredAt find) source.default default ∧
    Option.Rel (DocumentationSource.StoredAt find) source.documentation documentation

def FunctionPointerSource.StoredAs (file : String) (source : FunctionPointerSource)
    (r : TypedeclRecord) : Prop :=
  ∃ documentation function parameters result,
    r = { fullName := source.name, file, kind := .functionPointer, isExtern := source.isExtern
          documentation, function := some function } ∧
    find .functions function = some {
      name := source.name, classId := none, kind := .pointer, isClass := false, isBeta := false
      objectIsConst := false, parameters, method := some { result }, getter := none, setter := none
      implement := none } ∧
    Option.Rel (DocumentationSource.StoredAt find) source.documentation documentation ∧
    List.Forall₂ (ParameterSource.StoredAt find) source.parameters parameters ∧
    ReturnSource.StoredAs find source.result result

def VariableSource.StoredAt (file : String) (kind : VariableKind) (source : VariableSource)
    (id : Id .variables) : Prop :=
  ∃ type value documentation,
    find .variables id = some {
      fullName := source.name, file, kind, type, value, isExtern := source.isExtern,
      documentation } ∧
    source.type.StoredAt find type ∧ Option.Rel (ExpressionStoredAt find) source.value value ∧
    Option.Rel (DocumentationSource.StoredAt find) source.documentation documentation

/-- An accessor has its own keys and values, or else those of its property. -/
def AccessorSource.StoredAs (keys values : List ParameterSource) (source : AccessorSource)
    (r : AccessorRecord) : Prop :=
  ∃ result ownKeys ownValues,
    r = { scope := source.scope, result, legacy := source.legacy, legacyOnly := source.legacyOnly
          keys := ownKeys, values := ownValues } ∧
    ReturnSource.StoredAs find source.result result ∧
    List.Forall₂ (ParameterSource.StoredAt find) (source.keys.getD keys) ownKeys ∧
    List.Forall₂ (ParameterSource.StoredAt find) (source.values.getD values) ownValues

/-- A function of a class, with the implement that its class gives it. -/
def MethodSource.StoredAt (owner : Id .classes) (className : String) (source : MethodSource)
    (member : Id .functions × Id .implements) : Prop :=
  ∃ parameters result documentation,
    find .functions member.1 = some {
      name := source.name, classId := some owner, kind := .method, isClass := source.isClass
      isBeta := source.beta, objectIsConst := source.objectIsConst, parameters
      method := some {
        scope := source.scope, result, legacy := source.legacy, legacyOnly := source.legacyOnly }
      getter := none, setter := none, implement := some member.2 } ∧
    find .implements member.2 = some {
      fullName := className ++ "." ++ source.name, classId := owner, implementingClass := owner
      function := member.1, coversGetter := false, coversSetter := false
      getter := { pureVirtual := source.pureVirtual }, setter := {}
      documentation, getterDocumentation := none, setterDocumentation := none } ∧
    List.Forall₂ (ParameterSource.StoredAt find) source.parameters parameters ∧
    ReturnSource.StoredAs find source.result result ∧
    Option.Rel (DocumentationSource.StoredAt find) source.documentation documentation

def PropertySource.StoredAt (owner : Id .classes) (className : String) (source : PropertySource)
    (member : Id .functions × Id .implements) : Prop :=
  ∃ getter setter documentation getterDocumentation setterDocumentation,
    find .functions member.1 = some {
      name := source.name, classId := some owner
      kind := if source.getter.isNone then .setter else if source.setter.isNone then .getter
      else .property
      isClass := source.isClass, isBeta := source.beta
      objectIsConst := source.getter.any (·.objectIsConst), parameters := [], method := none
      getter, setter, implement := some member.2 } ∧
    find .implements member.2 = some {
      fullName := className ++ "." ++ source.name, classId := owner, implementingClass := owner
      function := member.1, coversGetter := source.getter.isSome,
      coversSetter := source.setter.isSome
      getter := { pureVirtual := source.getter.any (·.pureVirtual) }
      setter := { pureVirtual := source.setter.any (·.pureVirtual) }
      documentation, getterDocumentation, setterDocumentation } ∧
    Option.Rel (AccessorSource.StoredAs find source.keys source.values) source.getter getter ∧
    Option.Rel (AccessorSource.StoredAs find source.keys source.values) source.setter setter ∧
    Option.Rel (DocumentationSource.StoredAt find) source.documentation documentation ∧
    Option.Rel (DocumentationSource.StoredAt find) (source.getter.bind (·.documentation))
      getterDocumentation ∧
    Option.Rel (DocumentationSource.StoredAt find) (source.setter.bind (·.documentation))
      setterDocumentation

def Building.FunctionSource.StoredAt (owner : Id .classes) (className : String) :
    Building.FunctionSource → Id .functions × Id .implements → Prop
  | .method source, member => source.StoredAt find owner className member
  | .property source, member => source.StoredAt find owner className member

/-- A function of a class names its class. -/
theorem Building.FunctionSource.StoredAt.function {owner : Id .classes} {className : String}
    {source : Building.FunctionSource} {member : Id .functions × Id .implements}
    (h : source.StoredAt find owner className member) :
    ∃ f : FunctionRecord, find .functions member.1 = some f ∧ f.classId = some owner := by
  cases source with
  | method source =>
    obtain ⟨_, _, _, hf, -⟩ := h
    exact ⟨_, hf, rfl⟩
  | property source =>
    obtain ⟨_, _, _, _, _, hf, -⟩ := h
    exact ⟨_, hf, rfl⟩

def EventSource.StoredAt (owner : Id .classes) (source : EventSource) (id : Id .events) : Prop :=
  ∃ type documentation,
    find .events id = some {
      name := source.name, classId := owner, type, documentation, scope := source.scope
      isBeta := source.beta, isHot := source.hot, isRestart := source.restart } ∧
    Option.Rel (TypeSource.StoredAt find) source.type type ∧
    Option.Rel (DocumentationSource.StoredAt find) source.documentation documentation

/-- Which class a part is of is not said here: it may come from another file, and go with it. -/
def PartSource.StoredAt (source : PartSource) (id : Id .parts) : Prop :=
  ∃ classId documentation, find .parts id = some ⟨source.name, classId, documentation⟩ ∧
    Option.Rel (DocumentationSource.StoredAt find) source.documentation documentation

/-- Whether an implement is more than a switch for the constructor or the destructor of its
class. -/
def ImplementSource.IsExplicit (source : ImplementSource) : Prop :=
  source.name ≠ "class.constructor" ∧ source.name ≠ "class.destructor"

instance (source : ImplementSource) : Decidable source.IsExplicit :=
  inferInstanceAs (Decidable (_ ∧ _))

def ImplementSource.StoredAt (owner : Id .classes) (className : String) (source : ImplementSource)
    (id : Id .implements) : Prop :=
  ∃ target function coversGetter coversSetter documentation getterDocumentation setterDocumentation,
    let flags : ImplementFlags := {
      auto := source.auto, empty := source.empty, pureVirtual := source.pureVirtual }
    find .implements id = some {
      fullName := memberReference className source.name, classId := target,
      implementingClass := owner
      function, coversGetter, coversSetter
      getter := if coversSetter && !coversGetter then {} else flags
      setter := if coversSetter then flags else {}
      documentation, getterDocumentation, setterDocumentation } ∧
    Option.Rel (DocumentationSource.StoredAt find) source.documentation documentation ∧
    Option.Rel (DocumentationSource.StoredAt find) source.getterDocumentation getterDocumentation ∧
    Option.Rel (DocumentationSource.StoredAt find) source.setterDocumentation setterDocumentation

def ConstructorSource.StoredAt (className : String) (source : ConstructorSource)
    (id : Id .constructors) : Prop :=
  ∃ target function,
    find .constructors id = some ⟨memberReference className source.name, target, function,
      source.isOptional⟩

def ClassSource.StoredAs (file : String) (id : Id .classes) (source : ClassSource)
    (r : ClassRecord) : Prop :=
  ∃ documentation inherits members explicit constructors events parts,
    r = { fullName := source.name, file, kind := source.kind, documentation
          legacyPrefix := source.legacyPrefix, eoPrefix := source.eoPrefix
          eventPrefix := source.eventPrefix, dataType := source.dataType
          enablesConstructor := source.implements.any (·.name = "class.constructor")
          enablesDestructor := source.implements.any (·.name = "class.destructor")
          inherits, functions := members.map Prod.fst
          implements := members.map Prod.snd ++ explicit, constructors, events, parts } ∧
    Option.Rel (DocumentationSource.StoredAt find) source.documentation documentation ∧
    inherits.length = source.inherits.length ∧
    List.Forall₂ (Building.FunctionSource.StoredAt find id source.name)
      (source.methods.map .method ++ source.properties.map .property) members ∧
    List.Forall₂ (ImplementSource.StoredAt find id source.name)
      (source.implements.filter (·.IsExplicit)) explicit ∧
    List.Forall₂ (ConstructorSource.StoredAt find source.name) source.constructors constructors ∧
    List.Forall₂ (EventSource.StoredAt find id) source.events events ∧
    List.Forall₂ (PartSource.StoredAt find) source.parts parts

end

/-- Something that a file declares under a name. -/
inductive DeclarationSource where
  | declaredClass (source : ClassSource)
  | struct (source : StructSource)
  | enum (source : EnumSource)
  | alias (source : AliasSource)
  | functionPointer (source : FunctionPointerSource)
  | constant (source : VariableSource)
  | global (source : VariableSource)

namespace DeclarationSource

def heading : DeclarationSource → Heading
  | .declaredClass _ => .classes
  | .struct _ => .structs
  | .enum _ => .enums
  | .alias _ | .functionPointer _ => .aliases
  | .constant _ => .constants
  | .global _ => .globals

def name : DeclarationSource → String
  | .declaredClass source => source.name
  | .struct source => source.name
  | .enum source => source.name
  | .alias source => source.name
  | .functionPointer source => source.name
  | .constant source => source.name
  | .global source => source.name

/-- The record that a declaration leads to says what is declared. -/
def StoredAt (find : Lookup) (file : String) : DeclarationSource → DeclarationTarget → Prop
  | .declaredClass source, .classTarget id =>
    ∃ r, find .classes id = some r ∧ source.StoredAs find file id r
  | .struct source, .typedeclTarget id => ∃ r, find .typedecls id = some r ∧
      source.StoredAs find file r
  | .enum source, .typedeclTarget id => ∃ r, find .typedecls id = some r ∧
      source.StoredAs find file id r
  | .alias source, .typedeclTarget id => ∃ r, find .typedecls id = some r ∧
      source.StoredAs find file r
  | .functionPointer source, .typedeclTarget id =>
    ∃ r, find .typedecls id = some r ∧ source.StoredAs find file r
  | .constant source, .variableTarget id => source.StoredAt find file .constant id
  | .global source, .variableTarget id => source.StoredAt find file .global id
  | _, _ => False

end DeclarationSource

namespace FileSource

def declaredTypes (source : FileSource) : List DeclarationSource :=
  source.structs.map .struct ++ source.enums.map .enum ++ source.aliases.map .alias ++
    source.functionPointers.map .functionPointer

def declaredVariables (source : FileSource) : List DeclarationSource :=
  source.constants.map .constant ++ source.globals.map .global

/-- What a file declares, in the order in which its names are entered. -/
def declarations (source : FileSource) : List DeclarationSource :=
  source.declaredClass.toList.map .declaredClass ++ source.declaredTypes ++ source.declaredVariables

theorem map_declarations (source : FileSource) :
    source.declarations.map (fun x => (x.heading, x.name)) = source.names := by
  simp [declarations, declaredTypes, declaredVariables, names, typeNames, variableNames,
    Function.comp_def, DeclarationSource.heading, DeclarationSource.name]

end FileSource

end InterfaceCatalog
