import InterfaceCatalog.Datum.Basic
import InterfaceCatalog.Datum.Scan
import InterfaceCatalog.Datum.Shape
import InterfaceCatalog.Text.Items

namespace InterfaceCatalog

def Datum.levelLimit : Nat := 128

def readColon? (cs : List Char) : Option (List Char) := do
  match ← skipGap cs with
  | ':' :: cs => skipGap cs
  | _ => none

def readMark? (mark : Char) (cs : List Char) : Option (List Char) := do
  match ← skipGap cs with
  | c :: cs => if c = mark then return cs else none
  | [] => none

namespace Datum

/-- The ways to read what lies inside a datum: what is present, and what the others hold. -/
structure Inside where
  content : Reader
  item : Reader

def readField? (item : Reader) (shapeOf : String → Shape) (cs : List Char) :
    Option ((String × Datum) × List Char) := do
  let (name, cs) ← readWord? cs
  let (d, cs) ← item (shapeOf name) (← readColon? cs)
  return ((name, d), cs)

def readMapping? (item : Reader) (cs : List Char) : Option ((Datum × Datum) × List Char) := do
  let (key, cs) ← item .any cs
  let (d, cs) ← item .any (← readColon? cs)
  return ((key, d), cs)

def readList? (item : Reader) (shape : Shape) (cs : List Char) : Option (Datum × List Char) := do
  let (items, cs) ← readItems? skipGap (item shape) ']' (cs.length + 1) cs
  return (list items, cs)

def readMap? (item : Reader) (cs : List Char) : Option (Datum × List Char) := do
  let (entries, cs) ← readItems? skipGap (readMapping? item) '\x7d' (cs.length + 1) cs
  return (map entries, cs)

def readRecord? (item : Reader) (shapeOf : String → Shape) (name : Option String)
    (cs : List Char) : Option (Datum × List Char) := do
  let (fields, cs) ← readItems? skipGap (readField? item shapeOf) ')' (cs.length + 1) cs
  return (record name fields, cs)

/-- Whether a text after an opening parenthesis goes on like a record, with a word and a colon. -/
def startsRecord? (cs : List Char) : Option Bool := do
  match readWord? (← skipGap cs) with
  | none => return false
  | some (_, cs) =>
    match ← skipGap cs with
    | [] => none
    | c :: _ => return c == ':'

def readGroup? (item : Reader) (name : Option String) (cs : List Char) :
    Option (Datum × List Char) := do
  if ← startsRecord? cs then readRecord? item (fun _ => .any) name cs
  else
    let (items, cs) ← readItems? skipGap (item .any) ')' (cs.length + 1) cs
    return (tuple name items, cs)

def readPresent? (content : List Char → Option (Datum × List Char)) :
    List Char → Option (Datum × List Char)
  | '(' :: cs => do
    let (d, cs) ← content (← skipGap cs)
    match ← skipGap cs with
    | ',' :: cs => return (present d, ← readMark? ')' cs)
    | cs => return (present d, ← readMark? ')' cs)
  | cs => do
    let (d, cs) ← content cs
    return (present d, cs)

/-- A datum that may be absent. What is present may stand there without the word that says so, or
may follow it at once. -/
def readOptional? (content : List Char → Option (Datum × List Char)) :
    List Char → Option (Datum × List Char)
  | 'N' :: 'o' :: 'n' :: 'e' :: cs => some (absent, cs)
  | 'S' :: 'o' :: 'm' :: 'e' :: cs => skipGap cs >>= readPresent? content
  | cs => do
    let (d, cs) ← content cs
    return (present d, cs)

def literals : List (String × Datum) :=
  [("true", bool true), ("false", bool false), ("None", absent), ("()", tuple none []),
    ("inf", number "inf"), ("-inf", number "-inf"), ("NaN", number "NaN")]

def readLiteral? (cs : List Char) : Option (Datum × List Char) :=
  literals.findSome? fun (spelling, d) => (skipWhole? spelling cs).map (d, ·)

/-- A word, or the record or tuple that bears its name. -/
def readNamed? (inside : Option Inside) (name : String) (cs : List Char) :
    Option (Datum × List Char) := do
  match ← skipGap cs with
  | '(' :: cs => readGroup? (← inside).item (some name) cs
  | cs => return (word name, cs)

/-- What stands after no word, by its first character. -/
def readMarked? (inside : Option Inside) : List Char → Option (Datum × List Char)
  | '(' :: cs => do readGroup? (← inside).item none cs
  | '[' :: cs => do readList? (← inside).item .any cs
  | '\x7b' :: cs => do readMap? (← inside).item cs
  | '\x27' :: cs => (readChar? ('\x27' :: cs)).map fun (c, cs) => (char c, cs)
  | '"' :: cs => (readText? ('"' :: cs)).map fun (s, cs) => (text s, cs)
  | 'r' :: cs => (readText? ('r' :: cs)).map fun (s, cs) => (text s, cs)
  | cs => (readNumber? cs).map fun (digits, cs) => (number digits, cs)

def readAny? (inside : Option Inside) (cs : List Char) : Option (Datum × List Char) :=
  match readLiteral? cs with
  | some result => some result
  | none =>
    if (skipWhole? "Some" cs).isSome then
      readOptional? (fun cs => do (← inside).content .any cs) cs
    else
      match readWord? cs with
      | some (name, cs) => readNamed? inside name cs
      | none => readMarked? inside cs

/-- A datum of a shape. Without ways to read what lies inside, it holds no other. -/
def readOver? (schema : Schema) (inside : Option Inside) : Reader
  | .any, cs => readAny? inside cs
  | .text, cs => (readText? cs).map fun (s, cs) => (text s, cs)
  | .bool, cs => readBool? cs
  | .word, cs => (readWord? cs).map fun (name, cs) => (word name, cs)
  | .optional shape, cs => readOptional? (fun cs => do (← inside).content shape cs) cs
  | .list shape, cs => do readList? (← inside).item shape (← readMark? '[' cs)
  | .record kind, cs => do
    let item := (← inside).item
    match readWord? cs with
    | some (name, cs) => readRecord? item (schema.shapeOf kind) (some name) (← readMark? '(' cs)
    | none => readRecord? item (schema.shapeOf kind) none (← readMark? '(' cs)

def readWithin? (schema : Schema) : (levels : Nat) → Reader
  | 0, shape, cs => readOver? schema none shape cs
  | 1, shape, cs =>
    readOver? schema (some ⟨fun s cs => readWithin? schema 0 s cs, fun _ _ => none⟩) shape cs
  | levels + 2, shape, cs =>
    readOver? schema
      (some ⟨fun s cs => readWithin? schema (levels + 1) s cs,
        fun s cs => readWithin? schema levels s cs⟩)
      shape cs

end Datum

/-- The features that a text may ask for. They change nothing in data without wrappers. -/
def notationFeatures : List String :=
  ["unwrap_newtypes", "implicit_some", "unwrap_variant_newtypes"]

def readMarks? : List String → List Char → Option (List Char)
  | [], cs => some cs
  | mark :: marks, cs => do readMarks? marks (← skipGap (← skipSpelling? mark cs))

def readFeature? (cs : List Char) : Option (String × List Char) := do
  let (name, cs) ← readWord? cs
  if notationFeatures.contains name then return (name, cs) else none

/-- The text after the attributes at its head, each of which names features. -/
def skipAttributes? : (fuel : Nat) → List Char → Option (List Char)
  | 0, _ => none
  | fuel + 1, cs =>
    if cs.head? = some '#' then do
      let cs ← readMarks? ["#", "!", "[", "enable", "("] cs
      let (features, cs) ← readItems? skipGap readFeature? ')' (cs.length + 1) cs
      if features.isEmpty then none
      else
        let cs ← readMark? ']' cs
        skipAttributes? fuel (← skipGap cs)
    else some cs

def Datum.read? (schema : Schema) (shape : Shape) (source : String) : Option Datum := do
  let cs ← skipAttributes? (source.length + 1) (← skipGap source.toList)
  let (d, cs) ← Datum.readWithin? schema Datum.levelLimit shape cs
  if (← skipGap cs).isEmpty then return d else none

end InterfaceCatalog
