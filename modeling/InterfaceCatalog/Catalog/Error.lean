import InterfaceCatalog.Expression.Token
import InterfaceCatalog.Files.Disk
import InterfaceCatalog.Model.Record

namespace InterfaceCatalog

/-- Why a text is no file source: it is not well formed, or the reader says what is wrong with
it. -/
inductive ReadFault where
  | malformed
  | message (text : String)
  deriving DecidableEq

inductive ConversionFault where
  | invalidUtf8 (offset : Nat)
  | invalidFileName (path : Path)
  deriving DecidableEq

def ConversionFault.message : ConversionFault → String
  | invalidUtf8 offset => s!"invalid UTF-8 sequence at byte {offset}"
  | invalidFileName path => s!"path `{path.text}` has no valid unicode file name"

inductive TypeFault where
  | parameterCount (expected found : Nat)
  | opaqueFields
  deriving DecidableEq

def TypeFault.message : TypeFault → String
  | parameterCount expected found => s!"expected {expected} type parameters, found {found}"
  | opaqueFields => "an opaque struct cannot declare fields"

inductive LoadError where
  | access (path : Path) (fault : AccessFault)
  | notADirectory (path : Path)
  | unknownFile (name : String)
  | unsupportedFile (path : Path)
  | shadowedFile (path existing : Path)
  | conversion (path : Path) (fault : ConversionFault)
  | reader (file : String) (fault : ReadFault)
  | missingClass (file : String)
  | unexpectedClass (file : String)
  | redefinition (name file : String)
  | unresolvedType (name : String)
  | unresolvedClass (name : String)
  | unknownFunction (className name : String)
  | duplicateMember (owner name : String)
  | emptyProperty (className name : String)
  | notInherited (className inherited : String)
  | invalidType (name : String) (fault : TypeFault)
  | expression (text file : String) (fault : SyntaxError)
  | dependency (file : String) (source : LoadError)
  | staleRecord (table : Table) (handle : Handle)
  deriving DecidableEq

/-- The message of an error, unless a part of it is not the library's own to word. -/
def LoadError.message? : LoadError → Option String
  | access _ _ => none
  | notADirectory path => some s!"`{path.text}` is not a directory"
  | unknownFile name => some s!"no scanned file is named `{name}`"
  | unsupportedFile path => some s!"`{path.text}` is neither an interface nor a types file"
  | shadowedFile path existing =>
    some s!"`{path.text}` has the same file name as the already known `{existing.text}`"
  | conversion path fault => some s!"failed to decode `{path.text}`: {fault.message}"
  | reader _ .malformed => none
  | reader file (.message text) => some s!"failed to read `{file}`: {text}"
  | missingClass file => some s!"interface file `{file}` does not declare a class"
  | unexpectedClass file => some s!"types file `{file}` declares a class"
  | redefinition name file => some s!"`{name}` is already declared in `{file}`"
  | unresolvedType name => some s!"unknown type `{name}`"
  | unresolvedClass name => some s!"unknown class `{name}`"
  | unknownFunction className name => some s!"class `{className}` has no function `{name}`"
  | duplicateMember owner name => some s!"`{owner}` declares `{name}` more than once"
  | emptyProperty className name =>
    some s!"property `{className}.{name}` has neither a getter nor a setter"
  | notInherited className inherited => some s!"`{className}` does not inherit `{inherited}`"
  | invalidType name fault => some s!"invalid type `{name}`: {fault.message}"
  | expression text file fault =>
    some s!"invalid expression `{text}` in `{file}`: {fault.message}"
  | dependency file source =>
    source.message?.map fun text => s!"a dependency of `{file}` failed: {text}"
  | staleRecord table handle => some s!"no live {table.text} record {handle.text}"

end InterfaceCatalog
