import InterfaceCatalog.Number.Decimal

namespace InterfaceCatalog

def isGap (c : Char) : Bool := c == ' ' || c == '\t' || c == '\n' || c == '\r'

/-- The text after `depth` open comments. -/
def closeComment : (depth : Nat) → List Char → Option (List Char)
  | 0, cs => some cs
  | _ + 1, [] => none
  | depth + 1, '/' :: '*' :: cs => closeComment (depth + 2) cs
  | depth + 1, '*' :: '/' :: cs => closeComment depth cs
  | depth + 1, _ :: cs => closeComment (depth + 1) cs

theorem closeComment_length {depth : Nat} {cs rest : List Char}
    (h : closeComment depth cs = some rest) : rest.length ≤ cs.length := by
  fun_induction closeComment depth cs with
  | case1 => cases h; exact Nat.le_refl _
  | case2 => cases h
  | case3 _ cs ih => have := ih h; simp; omega
  | case4 _ cs ih => have := ih h; simp; omega
  | case5 _ _ cs _ _ ih => have := ih h; simp; omega

/-- The text after blanks and comments. A comment ends with its line, or is closed
and may hold others. -/
def skipGap : List Char → Option (List Char)
  | '/' :: '/' :: cs => skipGap (cs.dropWhile (· != '\n'))
  | '/' :: '*' :: cs =>
    match _h : closeComment 1 cs with
    | none => none
    | some rest => skipGap rest
  | '/' :: _ => none
  | c :: cs => if isGap c then skipGap cs else some (c :: cs)
  | [] => some []
termination_by cs => cs.length
decreasing_by
  · have := (List.dropWhile_suffix (p := (· != '\n')) (l := cs)).length_le
    simp; omega
  · have := closeComment_length _h
    simp; omega
  · simp

def isWordStart (c : Char) : Bool := isAsciiLetter c || c == '_'

def isWordPart (c : Char) : Bool := isWordStart c || isAsciiDigit c

def isMarkedPart (c : Char) : Bool := isWordPart c || c == '.' || c == '+' || c == '-'

/-- A word without a mark. It may not run into a character that only marked words have. -/
def readPlainWord? : List Char → Option (String × List Char)
  | 'r' :: '"' :: _ | 'r' :: '#' :: _ | [] => none
  | c :: cs =>
    let rest := cs.dropWhile isWordPart
    if isWordStart c && !rest.head?.any isMarkedPart then
      some (String.ofList (c :: cs.takeWhile isWordPart), rest)
    else none

/-- A word after the mark `r#`, which allows more characters and takes any meaning from it. -/
def readMarkedWord? : List Char → Option (String × List Char)
  | 'r' :: '#' :: cs =>
    if cs.head?.any isMarkedPart then
      some (String.ofList (cs.takeWhile isMarkedPart), cs.dropWhile isMarkedPart)
    else none
  | _ => none

def readWord? (cs : List Char) : Option (String × List Char) :=
  readPlainWord? cs <|> readMarkedWord? cs

def skipSpelling? (spelling : String) (cs : List Char) : Option (List Char) :=
  if spelling.toList.isPrefixOf cs then some (cs.drop spelling.length) else none

/-- The text after a fixed spelling that does not run into a longer word. -/
def skipWhole? (spelling : String) (cs : List Char) : Option (List Char) :=
  (skipSpelling? spelling cs).filter fun rest => !rest.head?.any isWordPart

def charOfCode? (n : Nat) : Option Char :=
  if n.isValidChar then some (Char.ofNat n) else none

/-- Between one and six hexadecimal digits and a closing brace. -/
def readBracedCode? (cs : List Char) : Option (Char × List Char) :=
  let digits := cs.takeWhile isHexDigit
  match cs.dropWhile isHexDigit with
  | '\x7d' :: rest =>
    if digits.isEmpty || 6 < digits.length then none
    else (charOfCode? (ofDigits 16 digits)).map (·, rest)
  | _ => none

def readEscape? : List Char → Option (Char × List Char)
  | '\x27' :: cs => some ('\x27', cs)
  | '"' :: cs => some ('"', cs)
  | '\\' :: cs => some ('\\', cs)
  | 'n' :: cs => some ('\n', cs)
  | 'r' :: cs => some ('\r', cs)
  | 't' :: cs => some ('\t', cs)
  | '0' :: cs => some ('\x00', cs)
  | 'x' :: a :: b :: cs =>
    if isHexDigit a && isHexDigit b then some (Char.ofNat (ofDigits 16 [a, b]), cs) else none
  | 'u' :: '\x7b' :: cs => readBracedCode? cs
  | _ => none

/-- The content of a quoted text after its opening quote. A text of `fuel` characters is not
longer. -/
def readQuoted? : (fuel : Nat) → List Char → Option (List Char × List Char)
  | 0, _ | _, [] => none
  | fuel + 1, c :: cs =>
    if c = '"' then some ([], cs)
    else if c = '\\' then do
      let (d, rest) ← readEscape? cs
      let (content, rest) ← readQuoted? fuel rest
      return (d :: content, rest)
    else do
      let (content, rest) ← readQuoted? fuel cs
      return (c :: content, rest)

/-- The characters up to a closing row of characters, and what follows it. -/
def splitAtRow? (row : List Char) : List Char → Option (List Char × List Char)
  | [] => none
  | c :: cs =>
    if row.isPrefixOf (c :: cs) then some ([], (c :: cs).drop row.length)
    else (splitAtRow? row cs).map fun (content, rest) => (c :: content, rest)

/-- A text as it stands, between quotes with equally many number signs outside both. -/
def readVerbatim? (cs : List Char) : Option (List Char × List Char) :=
  let signs := cs.takeWhile (· == '#')
  match cs.dropWhile (· == '#') with
  | '"' :: cs => splitAtRow? ('"' :: signs) cs
  | _ => none

def readText? : List Char → Option (String × List Char)
  | '"' :: cs => (readQuoted? (cs.length + 1) cs).map fun (content, rest) =>
      (String.ofList content, rest)
  | 'r' :: cs => (readVerbatim? cs).map fun (content, rest) => (String.ofList content, rest)
  | _ => none

def readChar? : List Char → Option (Char × List Char)
  | '\x27' :: '\\' :: cs =>
    match readEscape? cs with
    | some (c, '\x27' :: rest) => some (c, rest)
    | _ => none
  | '\x27' :: c :: '\x27' :: rest => if c = '\x27' then none else some (c, rest)
  | _ => none

def isSign (c : Char) : Bool := c == '+' || c == '-'

def isIntegerPart (c : Char) : Bool := isHexDigit c || c == '_'

def isFractionPart (c : Char) : Bool :=
  isAsciiDigit c || c == '.' || c == 'E' || c == 'e' || c == '+' || c == '-' || c == '_'

/-- An integer after its sign: decimal digits, or those of the radix that stands in front. Lines may
separate them. It must lie within 64 bits. -/
def readMagnitude? (limit : Nat) (cs : List Char) : Option (List Char) :=
  let (radix, cs) := match cs with
    | '0' :: 'x' :: cs => (16, cs)
    | '0' :: 'b' :: cs => (2, cs)
    | '0' :: 'o' :: cs => (8, cs)
    | cs => (10, cs)
  let row := cs.takeWhile isIntegerPart
  let digits := row.filter (· != '_')
  if row.isEmpty || row.head? == some '_' || digits.any (radix ≤ digitValue ·) then none
  else if ofDigits radix digits < limit then some (cs.dropWhile isIntegerPart)
  else none

def readInteger? : List Char → Option (List Char)
  | '+' :: cs => readMagnitude? (Nat.pow 2 63) cs
  | '-' :: cs => readMagnitude? (Nat.pow 2 63 + 1) cs
  | cs => readMagnitude? (Nat.pow 2 64) cs

def readFraction? (cs : List Char) : Option (List Char) :=
  let row := cs.takeWhile isFractionPart
  let magnitude := if row.head?.any isSign then row.tail else row
  if (Decimal.read? magnitude).isSome then some (cs.dropWhile isFractionPart) else none

def readNumber? (cs : List Char) : Option (String × List Char) :=
  if cs.head?.any fun c => isAsciiDigit c || isSign c || c == '.' then
    let after := if cs.head?.any isSign then cs.tail else cs
    let isFraction :=
      (after.takeWhile isIntegerPart).length < (after.takeWhile isFractionPart).length
    let rest := if isFraction then readFraction? cs else readInteger? cs <|> readFraction? cs
    rest.map fun rest => (String.ofList (cs.take (cs.length - rest.length)), rest)
  else none

end InterfaceCatalog
