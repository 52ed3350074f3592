import InterfaceCatalog.Expression.Tree

namespace InterfaceCatalog

/-- What is missing where a tree cannot go on. -/
inductive Expectation where
  | closing | expression
  deriving DecidableEq

def Expectation.text : Expectation → String
  | .closing => "`)`"
  | .expression => "an expression"

/-- Why a text is no expression; offsets count bytes. -/
inductive SyntaxError where
  | unexpectedCharacter (c : Char) (offset : Nat)
  | unterminatedLiteral (offset : Nat)
  | invalidEscape (offset : Nat)
  | invalidCharacter (offset : Nat)
  | invalidNumber (text : String) (offset : Nat)
  | expected (what : Expectation) (offset : Nat)
  | trailingInput (offset : Nat)
  deriving DecidableEq

def SyntaxError.message : SyntaxError → String
  | unexpectedCharacter c offset => s!"unexpected character `{c}` at byte {offset}"
  | unterminatedLiteral offset => s!"unterminated literal starting at byte {offset}"
  | invalidEscape offset => s!"invalid escape sequence at byte {offset}"
  | invalidCharacter offset =>
    s!"character literal at byte {offset} must hold exactly one character"
  | invalidNumber text offset => s!"invalid numeric literal `{text}` at byte {offset}"
  | expected what offset => s!"expected {what.text} at byte {offset}"
  | trailingInput offset => s!"unexpected trailing input at byte {offset}"

/-- A sign is a binary operator or a prefix, depending on its position. -/
inductive Token where
  | literal (l : Literal)
  | plus | minus
  | binary (o : BinaryOperator)
  | prefixed (o : UnaryOperator)
  | opening | closing
  deriving DecidableEq

def Token.binary? : Token → Option BinaryOperator
  | .plus => some .add
  | .minus => some .sub
  | .binary o => some o
  | _ => none

def Token.prefix? : Token → Option UnaryOperator
  | .plus => some .plus
  | .minus => some .minus
  | .prefixed o => some o
  | _ => none

inductive Tokens where
  | finish (offset : Nat)
  | fault (e : SyntaxError)
  | token (t : Token) (offset : Nat) (rest : Tokens)

/-- A token at the head of a text: its characters and the text after it. -/
structure Lexeme where
  token : Token
  text : List Char
  rest : List Char

def unescape? : Char → Option Char
  | 'n' => some '\n'
  | 't' => some '\t'
  | 'r' => some '\r'
  | '0' => some '\x00'
  | '\\' => some '\\'
  | '"' => some '"'
  | '\x27' => some '\x27'
  | _ => none

/-- A fault of a quoted literal; an escape is found by the characters before it. -/
inductive QuoteFault where
  | unterminated
  | escape (before : List Char)

structure Quotation where
  content : List Char
  text : List Char
  rest : List Char

def Quotation.cons (content : Char) (text : List Char) (q : Quotation) : Quotation :=
  ⟨content :: q.content, text ++ q.text, q.rest⟩

def QuoteFault.after (text : List Char) : QuoteFault → QuoteFault
  | unterminated => unterminated
  | escape before => escape (text ++ before)

def scanQuoted (quote : Char) : List Char → Except QuoteFault Quotation
  | [] => .error .unterminated
  | c :: cs =>
    if c = quote then .ok ⟨[], [c], cs⟩
    else if c = '\\' then
      match cs with
      | [] => .error .unterminated
      | e :: rest =>
        match unescape? e with
        | none => .error (.escape [])
        | some d =>
          match scanQuoted quote rest with
          | .ok q => .ok (q.cons d [c, e])
          | .error f => .error (f.after [c, e])
    else
      match scanQuoted quote cs with
      | .ok q => .ok (q.cons c [c])
      | .error f => .error (f.after [c])

def isNameStart (c : Char) : Bool := isAlphabetic c || c == '_'

def isNamePart (c : Char) : Bool := isAlphanumeric c || c == '_'

/-- The characters that continue a name. A dot does so only in front of a further segment. -/
def scanName : List Char → List Char × List Char
  | [] => ([], [])
  | c :: cs =>
    if isNamePart c || (c == '.' && cs.head?.any isNameStart) then
      let (name, rest) := scanName cs
      (c :: name, rest)
    else ([], c :: cs)

/-- The literal that a name denotes: a word of the language or a reference. -/
def Literal.ofName (name : List Char) : Literal :=
  match String.ofList name with
  | "true" => .value (.bool true)
  | "false" => .value (.bool false)
  | "null" => .value .null
  | name => .name name

/-- The parts of a number: the digits, with the point and the exponent of a floating one, and the
letters after them. -/
structure Numeral where
  hexadecimal : Bool
  floating : Bool
  start : List Char
  digits : List Char
  suffix : List Char
  rest : List Char

def Numeral.text (n : Numeral) : List Char := n.start ++ n.digits ++ n.suffix

def scanFraction : List Char → List Char × List Char
  | '.' :: cs => ('.' :: cs.takeWhile isAsciiDigit, cs.dropWhile isAsciiDigit)
  | cs => ([], cs)

def scanExponent : List Char → List Char × List Char
  | [] => ([], [])
  | c :: cs =>
    if c = 'e' ∨ c = 'E' then
      match cs with
      | s :: ds =>
        if s = '-' ∨ s = '+' then (c :: s :: ds.takeWhile isAsciiDigit, ds.dropWhile isAsciiDigit)
        else (c :: cs.takeWhile isAsciiDigit, cs.dropWhile isAsciiDigit)
      | [] => ([c], [])
    else ([], c :: cs)

def scanDecimal (cs : List Char) : Numeral :=
  let whole := cs.takeWhile isAsciiDigit
  let (fraction, afterFraction) := scanFraction (cs.dropWhile isAsciiDigit)
  let (exponent, rest) := scanExponent afterFraction
  { hexadecimal := false, floating := !(fraction ++ exponent).isEmpty, start := []
    digits := whole ++ fraction ++ exponent
    suffix := rest.takeWhile isAlphanumeric, rest := rest.dropWhile isAlphanumeric }

def scanHexadecimal (start cs : List Char) : Numeral :=
  let rest := cs.dropWhile isHexDigit
  { hexadecimal := true, floating := false, start, digits := cs.takeWhile isHexDigit
    suffix := rest.takeWhile isAlphanumeric, rest := rest.dropWhile isAlphanumeric }

def scanNumeral : List Char → Numeral
  | '0' :: x :: cs =>
    if x = 'x' ∨ x = 'X' then scanHexadecimal ['0', x] cs else scanDecimal ('0' :: x :: cs)
  | cs => scanDecimal cs

/-- The kinds that an integer with a suffix may have; the first one that holds it is taken. -/
def suffixKinds (suffix : List Char) : List IntegerKind :=
  match String.ofList (suffix.map asciiLower) with
  | "" => [.int, .long, .ulong]
  | "u" => [.uint]
  | "l" => [.long]
  | "ul" | "lu" => [.ulong]
  | "ll" => [.llong]
  | "ull" | "llu" => [.ullong]
  | _ => []

def Numeral.value? (n : Numeral) : Option Value :=
  if n.floating then
    match String.ofList (n.suffix.map asciiLower) with
    | "" => (Decimal.read? n.digits).map fun d => .double (d.toBinary _ false)
    | "f" => (Decimal.read? n.digits).map fun d => .float (d.toBinary _ false)
    | _ => none
  else if n.digits.isEmpty then none
  else
    let number := ofDigits (if n.hexadecimal then 16 else 10) n.digits
    ((suffixKinds n.suffix).findSome? fun k => Integer.of? k number).map .integer

/-- The operator or parenthesis at the head of a text, the longest one first. -/
def scanSymbol? : List Char → Option (Token × Nat)
  | '=' :: '=' :: _ => some (.binary .equal, 2)
  | '!' :: '=' :: _ => some (.binary .unequal, 2)
  | '&' :: '&' :: _ => some (.binary .and, 2)
  | '|' :: '|' :: _ => some (.binary .or, 2)
  | '<' :: '<' :: _ => some (.binary .shiftLeft, 2)
  | '<' :: '=' :: _ => some (.binary .lessEqual, 2)
  | '>' :: '>' :: _ => some (.binary .shiftRight, 2)
  | '>' :: '=' :: _ => some (.binary .greaterEqual, 2)
  | '(' :: _ => some (.opening, 1)
  | ')' :: _ => some (.closing, 1)
  | '+' :: _ => some (.plus, 1)
  | '-' :: _ => some (.minus, 1)
  | '*' :: _ => some (.binary .mul, 1)
  | '/' :: _ => some (.binary .div, 1)
  | '%' :: _ => some (.binary .mod, 1)
  | '^' :: _ => some (.binary .bitXor, 1)
  | '~' :: _ => some (.prefixed .bitNot, 1)
  | '!' :: _ => some (.prefixed .not, 1)
  | '&' :: _ => some (.binary .bitAnd, 1)
  | '|' :: _ => some (.binary .bitOr, 1)
  | '<' :: _ => some (.binary .less, 1)
  | '>' :: _ => some (.binary .greater, 1)
  | _ => none

/-- A quoted literal at `offset`. A character literal holds one character. -/
def scanQuotation (offset : Nat) (quote : Char) (cs : List Char) : Except SyntaxError Lexeme :=
  match scanQuoted quote cs with
  | .error .unterminated => .error (.unterminatedLiteral offset)
  | .error (.escape before) => .error (.invalidEscape (offset + utf8Length (quote :: before)))
  | .ok q =>
    if quote = '"' then
      .ok ⟨.literal (.value (.string (String.ofList q.content))), quote :: q.text, q.rest⟩
    else
      match q.content with
      | [c] => .ok ⟨.literal (.value (.char c)), quote :: q.text, q.rest⟩
      | _ => .error (.invalidCharacter offset)

/-- The token at the head of the text `c :: cs`, which stands at `offset`. -/
def scanToken (offset : Nat) (c : Char) (cs : List Char) : Except SyntaxError Lexeme :=
  match scanSymbol? (c :: cs) with
  | some (t, n) => .ok ⟨t, (c :: cs).take n, (c :: cs).drop n⟩
  | none =>
    if c = '"' ∨ c = '\x27' then scanQuotation offset c cs
    else if isAsciiDigit c then
      let n := scanNumeral (c :: cs)
      match n.value? with
      | some v => .ok ⟨.literal (.value v), n.text, n.rest⟩
      | none => .error (.invalidNumber (String.ofList n.text) offset)
    else if isNameStart c then
      let (name, rest) := scanName cs
      .ok ⟨.literal (Literal.ofName (c :: name)), c :: name, rest⟩
    else .error (.unexpectedCharacter c offset)

/-- The tokens of the text `cs` at `offset`; a text of `fuel` characters has no more tokens. -/
def tokensFrom : (fuel offset : Nat) → List Char → Tokens
  | 0, offset, _ => .finish offset
  | fuel + 1, offset, cs =>
    let start := offset + utf8Length (cs.takeWhile isBlank)
    match cs.dropWhile isBlank with
    | [] => .finish start
    | c :: cs =>
      match scanToken start c cs with
      | .error e => .fault e
      | .ok l => .token l.token start (tokensFrom fuel (start + utf8Length l.text) l.rest)

def tokens (text : String) : Tokens :=
  tokensFrom (text.toList.length + 1) 0 text.toList

end InterfaceCatalog
