import InterfaceCatalog.Query.Member
import InterfaceCatalog.Query.TypeText
import InterfaceCatalog.Source.Word

namespace InterfaceCatalog

def FunctionKind.reportText : FunctionKind → String
  | .method => "method"
  | .property => "property"
  | .getter => "getter"
  | .setter => "setter"
  | .unresolved | .pointer => "function"

def DeclarationKind.reportText : DeclarationKind → String
  | .unknown => "unknown"
  | .className => "class"
  | .aliasName => "alias"
  | .structName => "struct"
  | .enumName => "enum"
  | .variableName => "variable"

namespace Catalog

def functionLine (c : Catalog) (f : FunctionRecord) : String :=
  let name := c.functionCName f .unresolved false
  s!"  {f.kind.reportText} {f.name}: {name}\n"

def eventLine (c : Catalog) (e : EventRecord) : String :=
  match c.optionView? e.type with
  | some type => "  event " ++ e.name ++ ": " ++ c.typeText type.record ++ "\n"
  | none => "  event " ++ e.name ++ "\n"

/-- A class with its name in C, what it inherits, its functions and its events, one to a line. -/
def classReport (c : Catalog) (v : View .classes) : String :=
  let r := v.record
  let inherited := (c.inheritsFull v).map fun base => base.record.fullName
  let inheritance :=
    if inherited.isEmpty then "" else "  inherits: " ++ ", ".intercalate inherited ++ "\n"
  s!"class {r.fullName} ({r.kind.word}) in {r.file}\n" ++ s!"  c name: {r.cName}\n" ++
    inheritance ++ String.join ((c.functions r .unresolved).map fun f => c.functionLine f.record) ++
    String.join ((c.events r).map fun e => c.eventLine e.record)

/-- All declarations with their kinds and files, one to a line. -/
def declarationList (c : Catalog) : String :=
  let declared : List (View .declarations) := c.listAll .declarations none
  String.join (declared.map fun d =>
    s!"{d.record.kind.reportText} {d.record.fullName} ({d.record.file})\n")

end Catalog

end InterfaceCatalog
