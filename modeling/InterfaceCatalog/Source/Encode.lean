import InterfaceCatalog.Source.Decode

namespace InterfaceCatalog

namespace DocumentationSource

def toDatum (s : DocumentationSource) : Datum :=
  .record none [("summary", .text s.summary), ("description", .ofOptional .text s.description),
    ("since", .ofOptional .text s.since)]

end DocumentationSource

namespace Datum

def ofDocumentation (o : Option DocumentationSource) : Datum :=
  ofOptional DocumentationSource.toDatum o

def ofOptionalText (o : Option String) : Datum := ofOptional text o

def ofTexts (texts : List String) : Datum := ofList text texts

end Datum

namespace TypeSource

mutual

def toDatum : TypeSource → Datum
  | named name qualifiers freeFunction params =>
    .record none [("name", .text name), ("owned", .bool qualifiers.owned),
      ("const", .bool qualifiers.isConst), ("ptr", .bool qualifiers.ptr),
      ("params", .list (toData params)), ("free_func", .ofOptionalText freeFunction)]

def toData : List TypeSource → List Datum
  | [] => []
  | type :: types => type.toDatum :: toData types

end

end TypeSource

namespace StructFieldSource

def toDatum (s : StructFieldSource) : Datum :=
  .record none [("name", .text s.name), ("type", s.type.toDatum),
    ("documentation", .ofDocumentation s.documentation)]

end StructFieldSource

namespace StructSource

def toDatum (s : StructSource) : Datum :=
  .record none [("name", .text s.name), ("opaque", .bool s.isOpaque), ("extern", .bool s.isExtern),
    ("free_func", .ofOptionalText s.freeFunction),
    ("documentation", .ofDocumentation s.documentation),
    ("fields", .ofList StructFieldSource.toDatum s.fields)]

end StructSource

namespace EnumFieldSource

def toDatum (s : EnumFieldSource) : Datum :=
  .record none [("name", .text s.name), ("value", .ofOptionalText s.value),
    ("documentation", .ofDocumentation s.documentation)]

end EnumFieldSource

namespace EnumSource

def toDatum (s : EnumSource) : Datum :=
  .record none [("name", .text s.name), ("extern", .bool s.isExtern),
    ("legacy", .ofOptionalText s.legacy), ("documentation", .ofDocumentation s.documentation),
    ("fields", .ofList EnumFieldSource.toDatum s.fields)]

end EnumSource

namespace AliasSource

def toDatum (s : AliasSource) : Datum :=
  .record none [("name", .text s.name), ("extern", .bool s.isExtern),
    ("free_func", .ofOptionalText s.freeFunction),
    ("documentation", .ofDocumentation s.documentation), ("type", s.type.toDatum)]

end AliasSource

namespace ReturnSource

def toDatum (s : ReturnSource) : Datum :=
  .record none [("type", s.type.toDatum), ("default", .ofOptionalText s.default),
    ("documentation", .ofDocumentation s.documentation), ("warn_unused", .bool s.warnUnused)]

end ReturnSource

namespace ParameterSource

def toDatum (s : ParameterSource) : Datum :=
  .record none [("name", .text s.name), ("direction", .word s.direction.word),
    ("type", s.type.toDatum), ("default", .ofOptionalText s.default),
    ("documentation", .ofDocumentation s.documentation), ("nonull", .bool s.nonull),
    ("nullable", .bool s.nullable), ("optional", .bool s.isOptional)]

end ParameterSource

namespace FunctionPointerSource

def toDatum (s : FunctionPointerSource) : Datum :=
  .record none [("name", .text s.name), ("extern", .bool s.isExtern),
    ("documentation", .ofDocumentation s.documentation),
    ("return", .ofOptional ReturnSource.toDatum s.result),
    ("parameters", .ofList ParameterSource.toDatum s.parameters)]

end FunctionPointerSource

namespace VariableSource

def toDatum (s : VariableSource) : Datum :=
  .record none [("name", .text s.name), ("type", s.type.toDatum),
    ("value", .ofOptionalText s.value), ("extern", .bool s.isExtern),
    ("documentation", .ofDocumentation s.documentation)]

end VariableSource

namespace MethodSource

def toDatum (s : MethodSource) : Datum :=
  .record none [("name", .text s.name), ("scope", .word s.scope.word), ("class", .bool s.isClass),
    ("beta", .bool s.beta), ("const", .bool s.objectIsConst),
    ("pure_virtual", .bool s.pureVirtual), ("legacy", .ofOptionalText s.legacy),
    ("legacy_only", .bool s.legacyOnly), ("documentation", .ofDocumentation s.documentation),
    ("return", .ofOptional ReturnSource.toDatum s.result),
    ("parameters", .ofList ParameterSource.toDatum s.parameters)]

end MethodSource

namespace AccessorSource

def toDatum (s : AccessorSource) : Datum :=
  .record none [("scope", .word s.scope.word), ("const", .bool s.objectIsConst),
    ("pure_virtual", .bool s.pureVirtual), ("legacy", .ofOptionalText s.legacy),
    ("legacy_only", .bool s.legacyOnly), ("documentation", .ofDocumentation s.documentation),
    ("return", .ofOptional ReturnSource.toDatum s.result),
    ("keys", .ofOptional (.ofList ParameterSource.toDatum) s.keys),
    ("values", .ofOptional (.ofList ParameterSource.toDatum) s.values)]

end AccessorSource

namespace PropertySource

def toDatum (s : PropertySource) : Datum :=
  .record none [("name", .text s.name), ("class", .bool s.isClass), ("beta", .bool s.beta),
    ("documentation", .ofDocumentation s.documentation),
    ("keys", .ofList ParameterSource.toDatum s.keys),
    ("values", .ofList ParameterSource.toDatum s.values),
    ("get", .ofOptional AccessorSource.toDatum s.getter),
    ("set", .ofOptional AccessorSource.toDatum s.setter)]

end PropertySource

namespace EventSource

def toDatum (s : EventSource) : Datum :=
  .record none [("name", .text s.name), ("type", .ofOptional TypeSource.toDatum s.type),
    ("scope", .word s.scope.word), ("beta", .bool s.beta), ("hot", .bool s.hot),
    ("restart", .bool s.restart), ("documentation", .ofDocumentation s.documentation)]

end EventSource

namespace PartSource

def toDatum (s : PartSource) : Datum :=
  .record none [("name", .text s.name), ("class", .text s.className),
    ("documentation", .ofDocumentation s.documentation)]

end PartSource

namespace ImplementSource

def toDatum (s : ImplementSource) : Datum :=
  .record none [("name", .text s.name), ("get", .bool s.getter), ("set", .bool s.setter),
    ("auto", .bool s.auto), ("empty", .bool s.empty), ("pure_virtual", .bool s.pureVirtual),
    ("documentation", .ofDocumentation s.documentation),
    ("get_documentation", .ofDocumentation s.getterDocumentation),
    ("set_documentation", .ofDocumentation s.setterDocumentation)]

end ImplementSource

namespace ConstructorSource

def toDatum (s : ConstructorSource) : Datum :=
  .record none [("name", .text s.name), ("optional", .bool s.isOptional)]

end ConstructorSource

namespace ClassSource

def toDatum (s : ClassSource) : Datum :=
  .record none [("name", .text s.name), ("type", .word s.kind.word),
    ("documentation", .ofDocumentation s.documentation),
    ("legacy_prefix", .ofOptionalText s.legacyPrefix),
    ("eo_prefix", .ofOptionalText s.eoPrefix), ("event_prefix", .ofOptionalText s.eventPrefix),
    ("data_type", .ofOptionalText s.dataType), ("inherits", .ofTexts s.inherits),
    ("methods", .ofList MethodSource.toDatum s.methods),
    ("properties", .ofList PropertySource.toDatum s.properties),
    ("events", .ofList EventSource.toDatum s.events),
    ("parts", .ofList PartSource.toDatum s.parts),
    ("implements", .ofList ImplementSource.toDatum s.implements),
    ("constructors", .ofList ConstructorSource.toDatum s.constructors)]

end ClassSource

namespace FileSource

def toDatum (s : FileSource) : Datum :=
  .record none [("imports", .ofTexts s.imports),
    ("class", .ofOptional ClassSource.toDatum s.declaredClass),
    ("structs", .ofList StructSource.toDatum s.structs),
    ("enums", .ofList EnumSource.toDatum s.enums),
    ("aliases", .ofList AliasSource.toDatum s.aliases),
    ("function_pointers", .ofList FunctionPointerSource.toDatum s.functionPointers),
    ("constants", .ofList VariableSource.toDatum s.constants),
    ("globals", .ofList VariableSource.toDatum s.globals)]

end FileSource

end InterfaceCatalog
