import InterfaceCatalog.Catalog.Member

namespace InterfaceCatalog

namespace Building

def declareClass (s : Site) (source : ClassSource) : Building (Id .classes) := do
  checkAvailable source.name
  let id ← insert (t := .classes) { fullName := source.name, file := s.file, kind := source.kind }
  register s .classes source.name id
  declare s source.name .className (.classTarget id)
  pure id

def fillClass (s : Site) (id : Id .classes) (source : ClassSource) : Building Unit := do
  let documentation ← documentation source.documentation
  let inherits ← each (resolveClass s) source.inherits
  modify (t := .classes) id fun r => { r with
    documentation, legacyPrefix := source.legacyPrefix, eoPrefix := source.eoPrefix
    eventPrefix := source.eventPrefix, dataType := source.dataType, inherits }
  let members ← distinctly source.name FunctionSource.name
    (storeFunctionSource s id source.name) [] (functionSources source)
  modify (t := .classes) id fun r => { r with functions := members.map (·.1) }
  let events ← distinctly source.name (·.name) (storeEvent s id) [] source.events
  let parts ← distinctly source.name (·.name) (storePart s) [] source.parts
  modify (t := .classes) id fun r => { r with events, parts }
  let implements ← storeImplements s id source.implements
  let constructors ← each (storeConstructor s id) source.constructors
  modify (t := .classes) id fun r => { r with
    implements := members.map (·.2) ++ implements, constructors }

/-- Whether the file has a class exactly if its kind asks for one. -/
def checkKind (s : Site) (source : FileSource) : Building Unit :=
  match s.kind, source.declaredClass with
  | .interface, none => fail (.missingClass s.file)
  | .types, some _ => fail (.unexpectedClass s.file)
  | _, _ => pure ()

structure Declared where
  classId : Option (Id .classes)
  structs : List (Id .typedecls)
  enums : List (Id .typedecls)
  aliases : List (Id .typedecls)
  functionPointers : List (Id .typedecls)

def declareStruct (s : Site) (source : StructSource) : Building (Id .typedecls) :=
  declareTypedecl s (register s .structs) (if source.isOpaque then .opaqueStruct else .struct)
    .structName source.name

def declareEnum (s : Site) (source : EnumSource) : Building (Id .typedecls) :=
  declareTypedecl s (register s .enums) .enum .enumName source.name

def declareAlias (s : Site) (source : AliasSource) : Building (Id .typedecls) :=
  declareTypedecl s (register s .aliases) .alias .aliasName source.name

def declareFunctionPointer (s : Site) (source : FunctionPointerSource) :
    Building (Id .typedecls) :=
  declareTypedecl s (register s .aliases) .functionPointer .aliasName source.name

def declareAll (s : Site) (source : FileSource) : Building Declared := do
  let classId ← optional (declareClass s) source.declaredClass
  let structs ← each (declareStruct s) source.structs
  let enums ← each (declareEnum s) source.enums
  let aliases ← each (declareAlias s) source.aliases
  let functionPointers ← each (declareFunctionPointer s) source.functionPointers
  pure { classId, structs, enums, aliases, functionPointers }

def eachPair {α β : Type} (step : α → β → Building Unit) : List α → List β → Building Unit
  | a :: as, b :: bs => do
    step a b
    eachPair step as bs
  | _, _ => pure ()

def fillAll (s : Site) (declared : Declared) (source : FileSource) : Building Unit := do
  eachPair (fillStruct s) declared.structs source.structs
  eachPair (fillEnum s) declared.enums source.enums
  eachPair (fillAlias s) declared.aliases source.aliases
  eachPair (fillFunctionPointer s) declared.functionPointers source.functionPointers
  let _ ← each (declareVariable s (register s .constants) .constant) source.constants
  let _ ← each (declareVariable s (register s .globals) .global) source.globals
  match declared.classId, source.declaredClass with
  | some id, some classSource => fillClass s id classSource
  | _, _ => pure ()

def file (s : Site) (source : FileSource) : Building Unit := do
  checkKind s source
  let _ ← each (importFile s) source.imports
  let declared ← declareAll s source
  fillAll s declared source

end Building

/-- Builds a file and gives its changes, or leaves nothing of it. -/
def buildFile (s : Site) (source : FileSource) : Loading (List Change) := fun c =>
  match Building.file s source { catalog := c, journal := [] } with
  | .ok _ d => .ok d.journal d.catalog
  | .error e d => .error e (d.catalog.rollback d.journal)

end InterfaceCatalog
