import InterfaceCatalog.Datum.Basic
import InterfaceCatalog.Datum.Scan
import InterfaceCatalog.Datum.Shape
import InterfaceCatalog.Text.Items

namespace InterfaceCatalog

def readUnit? (cs : List Char) : Option (Nat × List Char) :=
  let digits := cs.take 4
  if digits.length = 4 && digits.all isHexDigit then some (ofDigits 16 digits, cs.drop 4) else none

/-- The character of one unit or of two that belong together. The rest of the text
follows the first. -/
def pairUnit? (unit : Nat) (cs : List Char) : Option (Char × List Char) :=
  if 0xD800 ≤ unit ∧ unit < 0xDC00 then
    match cs with
    | '\\' :: 'u' :: cs => do
      let (low, cs) ← readUnit? cs
      if 0xDC00 ≤ low ∧ low < 0xE000 then
        return (← charOfCode? (0x10000 + (unit - 0xD800) * 0x400 + (low - 0xDC00)), cs)
      else none
    | _ => none
  else (charOfCode? unit).map (·, cs)

/-- What an escape in JSON stands for, read after its backslash. Units are made
characters by `join`. -/
def readJsonEscape? (join : Nat → List Char → Option (Char × List Char)) :
    List Char → Option (Char × List Char)
  | '"' :: cs => some ('"', cs)
  | '\\' :: cs => some ('\\', cs)
  | '/' :: cs => some ('/', cs)
  | 'b' :: cs => some ('\x08', cs)
  | 'f' :: cs => some ('\x0c', cs)
  | 'n' :: cs => some ('\n', cs)
  | 'r' :: cs => some ('\r', cs)
  | 't' :: cs => some ('\t', cs)
  | 'u' :: cs => do
    let (unit, cs) ← readUnit? cs
    join unit cs
  | _ => none

/-- The content of a text in JSON after its opening quote. A text of `fuel`
characters is not longer. -/
def readJsonQuoted? (join : Nat → List Char → Option (Char × List Char)) :
    (fuel : Nat) → List Char → Option (List Char × List Char)
  | 0, _ | _, [] => none
  | fuel + 1, c :: cs =>
    if c = '"' then some ([], cs)
    else if c.toNat < 0x20 then none
    else do
      let (d, rest) ← if c = '\\' then readJsonEscape? join cs else some (c, cs)
      let (content, rest) ← readJsonQuoted? join fuel rest
      return (d :: content, rest)

def readJsonText? : List Char → Option (String × List Char)
  | '"' :: cs =>
    (readJsonQuoted? pairUnit? (cs.length + 1) cs).map fun (s, cs) => (String.ofList s, cs)
  | _ => none

/-- The text after a text in JSON. Its units need not make characters. -/
def skipJsonText? : List Char → Option (List Char)
  | '"' :: cs => (readJsonQuoted? (fun _ cs => some (' ', cs)) (cs.length + 1) cs).map (·.2)
  | _ => none

def skipDigits? (cs : List Char) : Option (List Char) :=
  if cs.head?.any isAsciiDigit then some (cs.dropWhile isAsciiDigit) else none

def skipJsonExponent? : List Char → Option (List Char)
  | [] => some []
  | c :: cs =>
    if c = 'e' ∨ c = 'E' then skipDigits? (if cs.head?.any isSign then cs.tail else cs)
    else some (c :: cs)

def skipJsonFraction? : List Char → Option (List Char)
  | '.' :: cs => skipDigits? cs >>= skipJsonExponent?
  | cs => skipJsonExponent? cs

/-- The text after a number. A zero stands in front of no digit. -/
def skipJsonNumber? (cs : List Char) : Option (List Char) :=
  match if cs.head? = some '-' then cs.tail else cs with
  | '0' :: cs => if cs.head?.any isAsciiDigit then none else skipJsonFraction? cs
  | cs => skipDigits? cs >>= skipJsonFraction?

def skipBlanks (cs : List Char) : List Char := cs.dropWhile isGap

def skipJsonColon? (cs : List Char) : Option (List Char) :=
  match skipBlanks cs with
  | ':' :: cs => some (skipBlanks cs)
  | _ => none

/-- The text after a value of any kind. A text of `fuel` characters is nested no deeper. -/
def skipJson? : (fuel : Nat) → List Char → Option (List Char)
  | 0, _ => none
  | fuel + 1, cs =>
    match cs with
    | '[' :: cs =>
      (readRow? skipBlanks (fun cs => (skipJson? fuel cs).map ((), ·)) ']' cs).map (·.2)
    | '\x7b' :: cs =>
      (readRow? skipBlanks
        (fun cs => do
          let cs ← skipJsonColon? (← skipJsonText? cs)
          return ((), ← skipJson? fuel cs))
        '\x7d' cs).map (·.2)
    | 'n' :: 'u' :: 'l' :: 'l' :: cs => some cs
    | 't' :: 'r' :: 'u' :: 'e' :: cs => some cs
    | 'f' :: 'a' :: 'l' :: 's' :: 'e' :: cs => some cs
    | '"' :: cs => skipJsonText? ('"' :: cs)
    | cs => skipJsonNumber? cs

namespace Datum

def jsonLimit : Nat := 127

def readJsonField? (inside : Reader) (shapeOf : String → Shape) (cs : List Char) :
    Option ((String × Datum) × List Char) := do
  let (name, cs) ← readJsonText? cs
  let (d, cs) ← inside (shapeOf name) (← skipJsonColon? cs)
  return ((name, d), cs)

/-- Values up to a closing bracket for the first fields of a record, in the order of its kind. -/
def readPlaces? (inside : Reader) : List (String × Shape) → List Char → Option (Fields × List Char)
  | [], _ => none
  | (name, shape) :: fields, cs => do
    let (d, cs) ← inside shape (skipBlanks cs)
    match skipBlanks cs with
    | ',' :: cs =>
      let (rest, cs) ← readPlaces? inside fields cs
      return ((name, d) :: rest, cs)
    | ']' :: cs => return ([(name, d)], cs)
    | _ => none

/-- A word as a text, or as the only name in an object, where nothing else is said of it. -/
def readJsonWord? (inside : Option Reader) : List Char → Option (Datum × List Char)
  | '\x7b' :: cs => do
    let _ ← inside
    let (name, cs) ← readJsonText? (skipBlanks cs)
    match ← skipJsonColon? cs with
    | 'n' :: 'u' :: 'l' :: 'l' :: cs =>
      match skipBlanks cs with
      | '\x7d' :: cs => return (word name, cs)
      | _ => none
    | _ => none
  | cs => (readJsonText? cs).map fun (name, cs) => (word name, cs)

/-- A record as an object, or as an array of its first fields. -/
def readJsonRecord? (inside : Reader) (fields : List (String × Shape))
    (shapeOf : String → Shape) : List Char → Option (Datum × List Char)
  | '\x7b' :: cs =>
    (readRow? skipBlanks (readJsonField? inside shapeOf) '\x7d' cs).map fun (fields, cs) =>
      (record none fields, cs)
  | '[' :: cs =>
    match skipBlanks cs with
    | ']' :: cs => some (record none [], cs)
    | cs => (readPlaces? inside fields cs).map fun (fields, cs) => (record none fields, cs)
  | _ => none

/-- A datum of a shape. Without a way to read what lies inside, it holds no other. -/
def readJsonOver? (schema : Schema) (inside : Option Reader) : Reader
  | .any, cs => (skipJson? (cs.length + 1) cs).map (absent, ·)
  | .text, cs => (readJsonText? cs).map fun (s, cs) => (text s, cs)
  | .bool, cs => readBool? cs
  | .word, cs => readJsonWord? inside cs
  | .optional shape, cs =>
    match cs with
    | 'n' :: 'u' :: 'l' :: 'l' :: cs => some (absent, cs)
    | cs => (readJsonOver? schema inside shape cs).map fun (d, cs) => (present d, cs)
  | .list shape, cs =>
    match cs with
    | '[' :: cs => do
      let (items, cs) ← readRow? skipBlanks ((← inside) shape) ']' cs
      return (list items, cs)
    | _ => none
  | .record kind, cs => do readJsonRecord? (← inside) (schema kind) (schema.shapeOf kind) cs

def readJsonWithin? (schema : Schema) : (depth : Nat) → Reader
  | 0, shape, cs => readJsonOver? schema none shape cs
  | depth + 1, shape, cs =>
    readJsonOver? schema (some fun s cs => readJsonWithin? schema depth s cs) shape cs

def readJson? (schema : Schema) (shape : Shape) (source : String) : Option Datum := do
  let (d, cs) ← readJsonWithin? schema jsonLimit shape (skipBlanks source.toList)
  if (skipBlanks cs).isEmpty then return d else none

end Datum

end InterfaceCatalog
