import InterfaceCatalog.Catalog.Error
import InterfaceCatalog.Datum.Json
import InterfaceCatalog.Datum.Reader
import InterfaceCatalog.Source.Decode
import InterfaceCatalog.Source.Schema

namespace InterfaceCatalog

namespace FileSource

def read (source : String) : Except ReadFault FileSource :=
  match Datum.read? schema (.record "FileSyntax") source >>= ofDatum? with
  | some file => .ok file
  | none => .error .malformed

def ofJson? (source : String) : Option FileSource :=
  Datum.readJson? schema (.record "FileSyntax") source >>= ofDatum?

end FileSource

end InterfaceCatalog
