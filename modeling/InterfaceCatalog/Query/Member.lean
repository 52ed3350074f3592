import InterfaceCatalog.Query.Function
import InterfaceCatalog.Query.Inheritance

namespace InterfaceCatalog

namespace ClassRecord

def cName (r : ClassRecord) : String :=
  toCapitals (cSpelling r.fullName) ++ "_" ++ r.kind.cSuffix

def cGetterName (r : ClassRecord) : String :=
  toSmalls (cSpelling r.fullName) ++ "_" ++ toSmalls r.kind.cSuffix ++ "_get"

/-- The type of the data of an object in C. The word null stands for no data. -/
def cDataType (r : ClassRecord) : String :=
  match r.dataType with
  | some "null" => "void"
  | some type => cSpelling type
  | none => cSpelling r.fullName ++ "_Data"

end ClassRecord

namespace ImplementRecord

/-- Whether an implement covers an accessor. Questions about no accessor in particular are
always answered. -/
def covers (r : ImplementRecord) : FunctionKind → Bool
  | .getter => r.coversGetter
  | .setter => r.coversSetter
  | _ => true

def documentationOf (r : ImplementRecord) : FunctionKind → Option (Id .documentation)
  | .getter => r.getterDocumentation
  | .setter => r.setterDocumentation
  | _ => r.documentation

def flags (r : ImplementRecord) (kind : FunctionKind) : ImplementFlags :=
  if kind = .setter then r.setter else r.getter

end ImplementRecord

namespace Catalog

def implementFunction? (c : Catalog) (r : ImplementRecord) (kind : FunctionKind) :
    Option (View .functions) :=
  if r.covers kind then c.view? r.function else none

def events (c : Catalog) (r : ClassRecord) : List (View .events) :=
  c.views r.events

def event? (c : Catalog) (r : ClassRecord) (name : String) : Option (View .events) :=
  (c.events r).find? fun e => e.record.name = name

/-- The name of an event in C: capitals, after the event prefix, the prefix or the name of its
class. -/
def eventCName (c : Catalog) (r : EventRecord) : String :=
  let start := match c.view? r.classId with
    | some owner =>
      (owner.record.eventPrefix.or owner.record.eoPrefix).getD (cSpelling owner.record.fullName)
    | none => ""
  let name := String.ofList (r.name.toList.map fun ch => if ch = ',' then '_' else ch)
  toCapitals (start ++ "_EVENT_" ++ name)

end Catalog

end InterfaceCatalog
