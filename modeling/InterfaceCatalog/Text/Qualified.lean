namespace InterfaceCatalog

def segmentsOf : List Char → List (List Char)
  | [] => [[]]
  | c :: cs =>
    if c = '.' then [] :: segmentsOf cs
    else
      match segmentsOf cs with
      | [] => [[c]]
      | s :: rest => (c :: s) :: rest

def segments (name : String) : List String :=
  (segmentsOf name.toList).map String.ofList

def shortName (name : String) : String :=
  (segments name).getLast?.getD name

def namespaces (name : String) : List String :=
  (segments name).dropLast

def splitLast? (name : String) : Option (String × String) :=
  let parts := segments name
  if parts.length < 2 then none
  else some (".".intercalate parts.dropLast, parts.getLast?.getD "")

/-- The name as an identifier of C: dots become underscores. -/
def cSpelling (name : String) : String :=
  String.ofList (name.toList.map fun c => if c = '.' then '_' else c)

end InterfaceCatalog
