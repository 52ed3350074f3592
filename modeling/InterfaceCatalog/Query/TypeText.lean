import InterfaceCatalog.Expression.Operation
import InterfaceCatalog.Query.Evaluation
import InterfaceCatalog.Query.Function
import InterfaceCatalog.Query.Lookup

namespace InterfaceCatalog

namespace Catalog

def typeChain (c : Catalog) : (fuel : Nat) → Option (Id .types) → List (View .types)
  | 0, _ => []
  | fuel + 1, id =>
    match c.optionView? id with
    | none => []
    | some v => v :: c.typeChain fuel v.record.next

/-- The parameters of a type. No chain is longer than the number of types. -/
def typeParameters (c : Catalog) (r : TypeRecord) : List (View .types) :=
  c.typeChain c.store.types.slots.size r.firstParameter

def wrappers (q : Qualifiers) : List String :=
  (if q.owned then ["own"] else []) ++ (if q.isConst then ["const"] else []) ++
    (if q.ptr then ["ptr"] else [])

/-- The text of a type whose parameters are nested at most `fuel` levels deep. -/
def typeTextWithin (c : Catalog) : (fuel : Nat) → TypeRecord → String
  | 0, r => r.fullName
  | fuel + 1, r =>
    let params := c.typeParameters r
    let list :=
      if params.isEmpty then ""
      else "<" ++ ", ".intercalate (params.map fun p => c.typeTextWithin fuel p.record) ++ ">"
    String.join ((wrappers r.qualifiers).map (· ++ "(")) ++ r.fullName ++ list ++
      String.join ((wrappers r.qualifiers).map fun _ => ")")

/-- The type as it is written, without its free function. -/
def typeText (c : Catalog) (r : TypeRecord) : String :=
  c.typeTextWithin (c.store.types.slots.size + 1) r

def alias? (c : Catalog) (r : TypeRecord) : Option (View .typedecls) :=
  (c.optionView? r.typedecl).filter fun d => d.record.kind = .alias

def aliasedBaseWithin (c : Catalog) : (steps : Nat) → View .types → View .types
  | 0, v => v
  | steps + 1, v =>
    match (c.alias? v.record).bind fun d => c.optionView? d.record.base with
    | none => v
    | some base => c.aliasedBaseWithin steps base

/-- The type behind aliases. A cycle of aliases is left at the depth of an evaluation. -/
def aliasedBase (c : Catalog) (v : View .types) : View .types :=
  c.aliasedBaseWithin maximumDepth v

end Catalog

/-- Whether a type in C ends with the mark of a pointer, which a name follows directly. -/
def endsWithStar (text : String) : Bool := text.toList.getLast? == some '*'

def TypeRecord.cText (r : TypeRecord) : String :=
  let core := match r.kind with
    | .void => "void"
    | .classType => "Eo *"
    | .regular => if r.builtin = .invalid then cSpelling r.fullName else r.builtin.cName
    | .undefined | .unknown => cSpelling r.fullName
  let text := (if r.qualifiers.isConst then "const " else "") ++ core
  if r.qualifiers.ptr then text ++ (if endsWithStar text then "*" else " *") else text

def TypeRecord.cDeclaration (r : TypeRecord) (name : String) : String :=
  r.cText ++ (if endsWithStar r.cText then "" else " ") ++ name

namespace Catalog

def enumFieldCText (c : Catalog) (r : EnumFieldRecord) : String :=
  match c.enumFieldValue? r true with
  | none => r.name
  | some value =>
    match c.evaluate value.id .integer with
    | .ok v => r.name ++ " = " ++ v.cText
    | .error _ => r.name

def cDeclaration? (c : Catalog) (type : Id .types) (name : String) : Option String :=
  (c.view? type).map fun t => t.record.cDeclaration name

def functionPointerCText (c : Catalog) (name : String) (f : FunctionRecord) : String :=
  let result := match c.optionView? (f.result .pointer).type with
    | some t => t.record.cText
    | none => "void"
  let parameters := (c.views f.parameters).filterMap fun p =>
    c.cDeclaration? p.record.type p.record.name
  let list := if parameters.isEmpty then "void" else ", ".intercalate parameters
  s!"typedef {result} (*{name})({list})"

def typedeclCText (c : Catalog) (r : TypedeclRecord) : String :=
  let name := cSpelling r.fullName
  match r.kind with
  | .struct =>
    let fields := (c.structFields r).filterMap fun f =>
      (c.cDeclaration? f.record.type f.record.name).map (· ++ "; ")
    "struct " ++ name ++ " \x7b " ++ String.join fields ++ "\x7d"
  | .opaqueStruct => "struct " ++ name
  | .enum =>
    let fields := (c.enumFields r).map fun f => c.enumFieldCText f.record
    "enum " ++ name ++ " \x7b " ++ ", ".intercalate fields ++ " \x7d"
  | .alias =>
    match c.optionView? r.base with
    | some base => "typedef " ++ base.record.cDeclaration name
    | none => "typedef void " ++ name
  | .functionPointer =>
    match c.optionView? r.function with
    | some f => c.functionPointerCText name f.record
    | none => s!"typedef void (*{name})(void)"
  | .unknown => name

/-- The name of an enum field in C: capitals, after the legacy prefix or the name of the enum. -/
def enumFieldCName (c : Catalog) (r : EnumFieldRecord) : String :=
  let start := match c.view? r.typedecl with
    | some d => d.record.legacyPrefix.getD (cSpelling d.record.fullName)
    | none => ""
  toCapitals (start ++ "_" ++ r.name)

end Catalog

end InterfaceCatalog
