import InterfaceCatalog.Datum.Shape

namespace InterfaceCatalog

namespace Shape

def optionalText : Shape := optional text

def documentation : Shape := optional (record "DocumentationSyntax")

def type : Shape := record "TypeSyntax"

def result : Shape := optional (record "ReturnSyntax")

def parameters : Shape := list (record "ParameterSyntax")

end Shape

open Shape in
def FileSource.schema : Schema
  | "FileSyntax" =>
    [("imports", list text), ("class", optional (record "ClassSyntax")),
      ("structs", list (record "StructSyntax")), ("enums", list (record "EnumSyntax")),
      ("aliases", list (record "AliasSyntax")),
      ("function_pointers", list (record "FunctionPointerSyntax")),
      ("constants", list (record "VariableSyntax")), ("globals", list (record "VariableSyntax"))]
  | "DocumentationSyntax" =>
    [("summary", text), ("description", optionalText), ("since", optionalText)]
  | "TypeSyntax" =>
    [("name", text), ("owned", bool), ("const", bool), ("ptr", bool), ("params", list type),
      ("free_func", optionalText)]
  | "StructSyntax" =>
    [("name", text), ("opaque", bool), ("extern", bool), ("free_func", optionalText),
      ("documentation", documentation), ("fields", list (record "StructFieldSyntax"))]
  | "StructFieldSyntax" => [("name", text), ("type", type), ("documentation", documentation)]
  | "EnumSyntax" =>
    [("name", text), ("extern", bool), ("legacy", optionalText), ("documentation", documentation),
      ("fields", list (record "EnumFieldSyntax"))]
  | "EnumFieldSyntax" =>
    [("name", text), ("value", optionalText), ("documentation", documentation)]
  | "AliasSyntax" =>
    [("name", text), ("extern", bool), ("free_func", optionalText),
      ("documentation", documentation), ("type", type)]
  | "FunctionPointerSyntax" =>
    [("name", text), ("extern", bool), ("documentation", documentation), ("return", result),
      ("parameters", parameters)]
  | "VariableSyntax" =>
    [("name", text), ("type", type), ("value", optionalText), ("extern", bool),
      ("documentation", documentation)]
  | "ClassSyntax" =>
    [("name", text), ("type", word), ("documentation", documentation),
      ("legacy_prefix", optionalText), ("eo_prefix", optionalText),
      ("event_prefix", optionalText), ("data_type", optionalText), ("inherits", list text),
      ("methods", list (record "MethodSyntax")), ("properties", list (record "PropertySyntax")),
      ("events", list (record "EventSyntax")), ("parts", list (record "PartSyntax")),
      ("implements", list (record "ImplementSyntax")),
      ("constructors", list (record "ConstructorSyntax"))]
  | "ReturnSyntax" =>
    [("type", type), ("default", optionalText), ("documentation", documentation),
      ("warn_unused", bool)]
  | "ParameterSyntax" =>
    [("name", text), ("direction", word), ("type", type), ("default", optionalText),
      ("documentation", documentation), ("nonull", bool), ("nullable", bool), ("optional", bool)]
  | "MethodSyntax" =>
    [("name", text), ("scope", word), ("class", bool), ("beta", bool), ("const", bool),
      ("pure_virtual", bool), ("legacy", optionalText), ("legacy_only", bool),
      ("documentation", documentation), ("return", result), ("parameters", parameters)]
  | "PropertySyntax" =>
    [("name", text), ("class", bool), ("beta", bool), ("documentation", documentation),
      ("keys", parameters), ("values", parameters), ("get", optional (record "AccessorSyntax")),
      ("set", optional (record "AccessorSyntax"))]
  | "AccessorSyntax" =>
    [("scope", word), ("const", bool), ("pure_virtual", bool), ("legacy", optionalText),
      ("legacy_only", bool), ("documentation", documentation), ("return", result),
      ("keys", optional parameters), ("values", optional parameters)]
  | "EventSyntax" =>
    [("name", text), ("type", optional type), ("scope", word), ("beta", bool), ("hot", bool),
      ("restart", bool), ("documentation", documentation)]
  | "PartSyntax" => [("name", text), ("class", text), ("documentation", documentation)]
  | "ImplementSyntax" =>
    [("name", text), ("get", bool), ("set", bool), ("auto", bool), ("empty", bool),
      ("pure_virtual", bool), ("documentation", documentation),
      ("get_documentation", documentation), ("set_documentation", documentation)]
  | "ConstructorSyntax" => [("name", text), ("optional", bool)]
  | _ => []

end InterfaceCatalog
