import InterfaceCatalog.Catalog.Basic
import InterfaceCatalog.Text.Case
import InterfaceCatalog.Text.Qualified

namespace InterfaceCatalog

namespace FunctionRecord

def isReadable (f : FunctionRecord) : Bool := f.getter.isSome

def isWritable (f : FunctionRecord) : Bool := f.setter.isSome

def isProperty (f : FunctionRecord) : Bool :=
  f.kind = .property || f.kind = .getter || f.kind = .setter

def answersTo (f : FunctionRecord) : FunctionKind → Bool
  | .unresolved => true
  | .method => f.kind = .method
  | .property => f.isProperty
  | .getter => f.isProperty && f.isReadable
  | .setter => f.isProperty && f.isWritable
  | .pointer => false

/-- The accessor that a question about `kind` is about. -/
def effectiveKind (f : FunctionRecord) : FunctionKind → FunctionKind
  | .unresolved | .property => if f.kind = .property then .getter else f.kind
  | kind => kind

def accessor? (f : FunctionRecord) (kind : FunctionKind) : Option AccessorRecord :=
  match f.effectiveKind kind with
  | .method | .pointer => f.method
  | .getter => f.getter
  | .setter => f.setter
  | .unresolved | .property => none

def scope (f : FunctionRecord) (kind : FunctionKind) : Scope :=
  match f.accessor? kind with
  | some a => a.scope
  | none => .unknown

/-- The legacy name of an accessor. The word null stands for none. -/
def legacy? (f : FunctionRecord) (kind : FunctionKind) : Option String :=
  ((f.accessor? kind).bind (·.legacy)).filter (· ≠ "null")

def isLegacyOnly (f : FunctionRecord) (kind : FunctionKind) : Bool :=
  (f.accessor? kind).any (·.legacyOnly)

def keys (f : FunctionRecord) (kind : FunctionKind) : List (Id .parameters) :=
  ((f.accessor? kind).map (·.keys)).getD []

def values (f : FunctionRecord) (kind : FunctionKind) : List (Id .parameters) :=
  ((f.accessor? kind).map (·.values)).getD []

def result (f : FunctionRecord) (kind : FunctionKind) : ReturnRecord :=
  ((f.accessor? kind).map (·.result)).getD {}

end FunctionRecord

namespace Catalog

def functions (c : Catalog) (r : ClassRecord) (kind : FunctionKind) : List (View .functions) :=
  (c.views r.functions).filter fun f => f.record.answersTo kind

def function? (c : Catalog) (r : ClassRecord) (name : String) (kind : FunctionKind) :
    Option (View .functions) :=
  (c.functions r kind).find? fun f => f.record.name = name

def isConstructor (c : Catalog) (f : View .functions) (r : ClassRecord) : Bool :=
  (c.views r.constructors).any fun k => (c.view? k.record.function).any fun g => g.id = f.id

/-- The name of an accessor in C. The prefix of the class, or its own name in small letters, comes
first; a legacy name stands for itself. -/
def functionCName (c : Catalog) (f : FunctionRecord) (kind : FunctionKind) (legacy : Bool) :
    String :=
  match c.optionView? f.classId with
  | none => cSpelling f.name
  | some owner =>
    let suffix := match f.effectiveKind kind with
      | .getter => "_get"
      | .setter => "_set"
      | _ => ""
    match if legacy then f.legacy? kind else none with
    | some name => name ++ suffix
    | none =>
      let chosen := if legacy then owner.record.legacyPrefix else owner.record.eoPrefix
      chosen.getD (toSmalls (cSpelling owner.record.fullName)) ++ "_" ++ f.name ++ suffix

end Catalog

end InterfaceCatalog
