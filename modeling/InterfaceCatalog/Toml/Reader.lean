import InterfaceCatalog.Text.Items
import InterfaceCatalog.Toml.Basic
import InterfaceCatalog.Toml.Scan

namespace InterfaceCatalog

def Toml.nestingLimit : Nat := 79

def TomlKey.read? : (limit : Nat) → List Char → Option (TomlKey × List Char)
  | 0, _ => none
  | limit + 1, cs => do
    let (name, cs) ← readKeyName? (skipSpaces cs)
    match skipSpaces cs with
    | '.' :: cs =>
      let (key, cs) ← TomlKey.read? limit cs
      return ({ key with path := name :: key.path }, cs)
    | cs => return (⟨[], name⟩, cs)

namespace Toml

abbrev Reader := List Char → Option (Toml × List Char)

def readPair? (value : Reader) (cs : List Char) : Option (TomlPair × List Char) := do
  let (key, cs) ← TomlKey.read? nestingLimit cs
  let (v, cs) ← value (skipSpaces (← readExactly? '=' cs))
  return (⟨key, v⟩, cs)

def readBraced? (value : Reader) (cs : List Char) : Option (Toml × List Char) := do
  let (pairs, cs) ← readRow? skipSpaces (readPair? value) '\x7d' cs
  let t ← (TomlTable.empty .written).addPairs? pairs
  return (braced t.entries, cs)

def readPlain? (cs : List Char) : Option (Toml × List Char) :=
  match cs with
  | 't' :: 'r' :: 'u' :: 'e' :: cs => some (bool true, cs)
  | 'f' :: 'a' :: 'l' :: 's' :: 'e' :: cs => some (bool false, cs)
  | '"' :: _ | '\x27' :: _ => (readTomlText? cs).map fun (s, cs) => (text s, cs)
  | cs => (readScalar? cs).map fun (digits, cs) => (scalar digits, cs)

def readWithin? : (depth : Nat) → Reader
  | 0, cs => readPlain? cs
  | depth + 1, cs =>
    match cs with
    | '[' :: cs => do
      let (items, cs) ←
        readItems? (fun cs => some (skipLines (cs.length + 1) cs)) (readWithin? depth) ']'
          (cs.length + 1) cs
      return (array items, cs)
    | '\x7b' :: cs => readBraced? (readWithin? depth) cs
    | cs => readPlain? cs

end Toml

inductive TomlLine where
  | blank
  | pair (p : TomlPair)
  | header (key : TomlKey) (isRow : Bool)

/-- A header in single brackets, or in double ones if it makes a row of tables. -/
def TomlLine.readHeader? (cs : List Char) : Option (TomlLine × List Char) := do
  match cs with
  | '[' :: cs =>
    let (key, cs) ← TomlKey.read? Toml.nestingLimit cs
    return (header key true, ← readExactly? ']' (← readExactly? ']' cs))
  | cs =>
    let (key, cs) ← TomlKey.read? Toml.nestingLimit cs
    return (header key false, ← readExactly? ']' cs)

def TomlLine.read? (cs : List Char) : Option (TomlLine × List Char) := do
  match endLine? cs with
  | some rest => return (blank, rest)
  | none =>
    let (line, cs) ←
      match skipSpaces cs with
      | '[' :: cs => readHeader? cs
      | cs => (Toml.readPair? (Toml.readWithin? Toml.nestingLimit) cs).map fun (p, cs) =>
          (pair p, cs)
    return (line, ← endLine? cs)

/-- The lines of a text. A text of `fuel` characters has no more of them. -/
def TomlLine.readAll? : (fuel : Nat) → List Char → Option (List TomlLine)
  | _, [] => some []
  | 0, _ => none
  | fuel + 1, cs => do
    let (line, cs) ← read? cs
    return line :: (← readAll? fuel cs)

def TomlLine.sections : List TomlLine → List TomlPair × List TomlSection
  | [] => ([], [])
  | line :: lines =>
    let (pairs, rest) := sections lines
    match line with
    | blank => (pairs, rest)
    | pair p => (p :: pairs, rest)
    | header key isRow => ([], ⟨key, isRow, pairs⟩ :: rest)

/-- The table that a document denotes. A byte order mark in front is no part of it. -/
def TomlTable.read? (source : String) : Option TomlTable := do
  let cs := match source.toList with
    | '\ufeff' :: cs => cs
    | cs => cs
  let (pairs, sections) := TomlLine.sections (← TomlLine.readAll? (cs.length + 1) cs)
  ofSections? pairs sections

end InterfaceCatalog
