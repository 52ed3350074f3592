import InterfaceCatalog.Text.Character
import InterfaceCatalog.Text.CaseTables

namespace InterfaceCatalog

/-- The image of `n` under the run that it belongs to, or `n` itself. -/
def mapRun (runs : List (Nat × Nat × Nat × Nat)) (n : Nat) : Nat :=
  match runs.find? fun (first, last, step, _) =>
    first ≤ n && n ≤ last && (n - first) % step == 0 with
  | some (first, _, _, image) => image + (n - first)
  | none => n

def capitalForm (c : Char) : List Char :=
  if c.toNat < 128 then
    [if 'a' ≤ c && c ≤ 'z' then Char.ofNat (c.toNat - 32) else c]
  else
    match longCapitals.lookup c.toNat with
    | some codes => codes.map Char.ofNat
    | none => [Char.ofNat (mapRun capitalRuns c.toNat)]

def smallForm (c : Char) : List Char :=
  if c.toNat < 128 then [asciiLower c]
  else if c.toNat = 0x130 then ['i', Char.ofNat 0x307]
  else [Char.ofNat (mapRun smallRuns c.toNat)]

def isCased (c : Char) : Bool :=
  if c.toNat < 128 then isAsciiLetter c else inRanges casedRanges c.toNat

def isCaseIgnorable (c : Char) : Bool :=
  if c.toNat < 128 then c == '\x27' || c == '.' || c == ':' || c == '^' || c.toNat = 96
  else inRanges caseIgnorableRanges c.toNat

/-- Whether a cased letter comes first once the ignorable characters are skipped. -/
def startsCased (cs : List Char) : Bool :=
  (cs.dropWhile isCaseIgnorable).head?.any isCased

/-- The small forms of `cs`, where `before` holds the characters before it in reverse. -/
def smallForms (before : List Char) : List Char → List Char
  | [] => []
  | c :: cs =>
    let form :=
      if c = 'Σ' then [if startsCased before && !startsCased cs then 'ς' else 'σ'] else smallForm c
    form ++ smallForms (c :: before) cs

def toCapitals (text : String) : String :=
  String.ofList (text.toList.flatMap capitalForm)

def toSmalls (text : String) : String :=
  String.ofList (smallForms [] text.toList)

end InterfaceCatalog
