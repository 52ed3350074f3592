import InterfaceCatalog.Number.Decimal

namespace InterfaceCatalog

def isSpaceOrTab (c : Char) : Bool := c == ' ' || c == '\t'

/-- The characters of a line: tabs, and all that are no control characters. -/
def isLineChar (c : Char) : Bool := c == '\t' || (0x20 ≤ c.toNat && c.toNat != 0x7F)

def skipSpaces (cs : List Char) : List Char := cs.dropWhile isSpaceOrTab

def skipComment : List Char → List Char
  | '#' :: cs => cs.dropWhile isLineChar
  | cs => cs

def afterBreak? : List Char → Option (List Char)
  | '\n' :: cs => some cs
  | '\r' :: '\n' :: cs => some cs
  | _ => none

def endLine? (cs : List Char) : Option (List Char) :=
  match skipComment (skipSpaces cs) with
  | [] => some []
  | cs => afterBreak? cs

/-- The text after spaces, comments and line breaks. A text of `fuel` characters has no more of
them. -/
def skipLines : (fuel : Nat) → List Char → List Char
  | 0, cs => cs
  | fuel + 1, cs =>
    let cs := skipComment (skipSpaces cs)
    match afterBreak? cs with
    | some rest => skipLines fuel rest
    | none => cs

def skipBreaks : (fuel : Nat) → List Char → List Char
  | 0, cs => cs
  | fuel + 1, cs =>
    let cs := skipSpaces cs
    match afterBreak? cs with
    | some rest => skipBreaks fuel rest
    | none => cs

def readCode? (n : Nat) (cs : List Char) : Option (Char × List Char) :=
  let digits := cs.take n
  let code := ofDigits 16 digits
  if digits.length = n && digits.all isHexDigit && code.isValidChar then
    some (Char.ofNat code, cs.drop n)
  else none

def readTomlEscape? : List Char → Option (Char × List Char)
  | 'b' :: cs => some ('\x08', cs)
  | 't' :: cs => some ('\t', cs)
  | 'n' :: cs => some ('\n', cs)
  | 'f' :: cs => some ('\x0c', cs)
  | 'r' :: cs => some ('\r', cs)
  | '"' :: cs => some ('"', cs)
  | '\\' :: cs => some ('\\', cs)
  | 'u' :: cs => readCode? 4 cs
  | 'U' :: cs => readCode? 8 cs
  | _ => none

/-- The content of a text within a line, after its opening quote. In double quotes
there are escapes. -/
def readLineText? (quote : Char) : (fuel : Nat) → List Char → Option (List Char × List Char)
  | 0, _ | _, [] => none
  | fuel + 1, c :: cs =>
    if c = quote then some ([], cs)
    else if quote = '"' ∧ c = '\\' then do
      let (d, rest) ← readTomlEscape? cs
      let (content, rest) ← readLineText? quote fuel rest
      return (d :: content, rest)
    else if isLineChar c then do
      let (content, rest) ← readLineText? quote fuel cs
      return (c :: content, rest)
    else none

/-- The content of a text over several lines, after its three opening quotes. It ends with three
quotes, and up to two more before them belong to it. In double quotes there are escapes, and a
backslash at the end of a line takes away what is blank after it. -/
def readLinesText? (quote : Char) : (fuel : Nat) → List Char → Option (List Char × List Char)
  | 0, _ | _, [] => none
  | fuel + 1, c :: cs =>
    if c = quote then
      let quotes := cs.takeWhile (· == quote)
      let rest := cs.dropWhile (· == quote)
      if quotes.length < 2 then do
        let (content, rest) ← readLinesText? quote fuel rest
        return (c :: quotes ++ content, rest)
      else
        let inner := min (quotes.length - 2) 2
        some (List.replicate inner quote, cs.drop (inner + 2))
    else if quote = '"' ∧ c = '\\' then
      match afterBreak? (skipSpaces cs) with
      | some rest => readLinesText? quote fuel (skipBreaks rest.length rest)
      | none => do
        let (d, rest) ← readTomlEscape? cs
        let (content, rest) ← readLinesText? quote fuel rest
        return (d :: content, rest)
    else if isLineChar c then do
      let (content, rest) ← readLinesText? quote fuel cs
      return (c :: content, rest)
    else do
      let (content, rest) ← readLinesText? quote fuel (← afterBreak? (c :: cs))
      return ('\n' :: content, rest)

/-- A text. A line break right after three opening quotes is no part of it. -/
def readTomlText? : List Char → Option (String × List Char)
  | q :: cs =>
    if q != '"' && q != '\x27' then none
    else
      let result :=
        if cs.take 2 = [q, q] then
          let body := (afterBreak? (cs.drop 2)).getD (cs.drop 2)
          readLinesText? q (body.length + 1) body
        else readLineText? q (cs.length + 1) cs
      result.map fun (content, rest) => (String.ofList content, rest)
  | [] => none

def isBareKeyChar (c : Char) : Bool :=
  isAsciiLetter c || isAsciiDigit c || c == '_' || c == '-'

def readKeyName? : List Char → Option (String × List Char)
  | q :: cs =>
    if q = '"' ∨ q = '\x27' then
      (readLineText? q (cs.length + 1) cs).map fun (name, rest) => (String.ofList name, rest)
    else
      let name := (q :: cs).takeWhile isBareKeyChar
      if name.isEmpty then none else some (String.ofList name, (q :: cs).dropWhile isBareKeyChar)
  | [] => none

/-- A row of digits with single lines between some of them. -/
def readDigits? (isDigit : Char → Bool) (cs : List Char) : Option (List Char × List Char) :=
  let row := cs.takeWhile fun c => isDigit c || c == '_'
  let rest := cs.dropWhile fun c => isDigit c || c == '_'
  let single := (row.zip row.tail).all fun (a, b) => a != '_' || b != '_'
  if row.head?.any isDigit && row.getLast?.any isDigit && single then
    some (row.filter isDigit, rest)
  else none

/-- The digits of a decimal integer without its sign. A zero stands in front of no digit. -/
def readWhole? (cs : List Char) : Option (List Char × List Char) := do
  let (digits, rest) ← readDigits? isAsciiDigit cs
  if digits.head? = some '0' ∧ 1 < digits.length then none else return (digits, rest)

def readSign : List Char → Bool × List Char
  | '-' :: cs => (true, cs)
  | '+' :: cs => (false, cs)
  | cs => (false, cs)

def readExponent? : List Char → Option (List Char × List Char)
  | c :: cs =>
    if c = 'e' ∨ c = 'E' then do
      let sign := cs.takeWhile fun c => c == '+' || c == '-'
      let (digits, rest) ← readDigits? isAsciiDigit (cs.drop sign.length)
      if sign.length ≤ 1 then return ('e' :: sign ++ digits, rest) else none
    else none
  | [] => none

def readPoint? : List Char → Option (List Char × List Char)
  | '.' :: cs => (readDigits? isAsciiDigit cs).map fun (digits, rest) => ('.' :: digits, rest)
  | _ => none

/-- A number with a fraction or an exponent. A positive one must not round to infinity. -/
def readTomlFraction? (cs : List Char) : Option (List Char) := do
  let (negative, cs) := readSign cs
  match cs with
  | 'i' :: 'n' :: 'f' :: cs | 'n' :: 'a' :: 'n' :: cs => return cs
  | cs =>
    let (whole, cs) ← readWhole? cs
    let (digits, cs) ←
      match readPoint? cs with
      | some (fraction, cs) =>
        match readExponent? cs with
        | some (exponent, cs) => some (fraction ++ exponent, cs)
        | none => some (fraction, cs)
      | none => readExponent? cs
    let d ← Decimal.read? (whole ++ digits)
    if !negative && d.toBinary .double false == .infinite false then none else return cs

/-- An integer within 64 bits, in decimal digits or in those of a radix that stands in front. -/
def readTomlInteger? (cs : List Char) : Option (List Char) := do
  let based (radix : Nat) (isDigit : Char → Bool) (cs : List Char) : Option (List Char) := do
    let (digits, cs) ← readDigits? isDigit cs
    if ofDigits radix digits < Nat.pow 2 63 then return cs else none
  match cs with
  | '0' :: 'x' :: cs => based 16 isHexDigit cs
  | '0' :: 'o' :: cs => based 8 (fun c => '0' ≤ c && c ≤ '7') cs
  | '0' :: 'b' :: cs => based 2 (fun c => c == '0' || c == '1') cs
  | cs =>
    let (negative, cs) := readSign cs
    let (digits, cs) ← readWhole? cs
    if ofDigits 10 digits < Nat.pow 2 63 + (if negative then 1 else 0) then return cs else none

def readPart? (n low high : Nat) (cs : List Char) : Option (Nat × List Char) :=
  let digits := cs.take n
  let number := ofDigits 10 digits
  if digits.length = n && digits.all isAsciiDigit && low ≤ number && number ≤ high then
    some (number, cs.drop n)
  else none

def readExactly? (c : Char) : List Char → Option (List Char)
  | d :: cs => if d = c then some cs else none
  | [] => none

def daysInMonth (year month : Nat) : Nat :=
  if month = 2 then if year % 4 = 0 ∧ (year % 100 ≠ 0 ∨ year % 400 = 0) then 29 else 28
  else if month = 4 ∨ month = 6 ∨ month = 9 ∨ month = 11 then 30
  else 31

def readDay? (cs : List Char) : Option (List Char) := do
  let (year, cs) ← readPart? 4 0 9999 cs
  let (month, cs) ← readPart? 2 1 12 (← readExactly? '-' cs)
  let (_, cs) ← readPart? 2 1 (daysInMonth year month) (← readExactly? '-' cs)
  return cs

/-- A time of day, with a fraction of a second or without. A minute may end in a leap second. -/
def readTime? (cs : List Char) : Option (List Char) := do
  let (_, cs) ← readPart? 2 0 23 cs
  let (_, cs) ← readPart? 2 0 59 (← readExactly? ':' cs)
  let (_, cs) ← readPart? 2 0 60 (← readExactly? ':' cs)
  match cs with
  | '.' :: rest =>
    if rest.head?.any isAsciiDigit then return rest.dropWhile isAsciiDigit else return cs
  | cs => return cs

def readOffset? : List Char → Option (List Char)
  | [] => none
  | c :: cs =>
    if c = 'Z' ∨ c = 'z' then some cs
    else if c = '+' ∨ c = '-' then do
      let (_, cs) ← readPart? 2 0 23 cs
      let (_, cs) ← readPart? 2 0 59 (← readExactly? ':' cs)
      return cs
    else none

/-- A day with or without a time, or a time alone. -/
def readDate? (cs : List Char) : Option (List Char) :=
  match readDay? cs with
  | none => readTime? cs
  | some cs =>
    match cs with
    | c :: rest =>
      if c = 'T' ∨ c = 't' ∨ c = ' ' then
        match readTime? rest with
        | none => some cs
        | some rest => some ((readOffset? rest).getD rest)
      else some cs
    | [] => some []

def readScalar? (cs : List Char) : Option (String × List Char) :=
  (readDate? cs <|> readTomlFraction? cs <|> readTomlInteger? cs).map fun rest =>
    (String.ofList (cs.take (cs.length - rest.length)), rest)

end InterfaceCatalog
