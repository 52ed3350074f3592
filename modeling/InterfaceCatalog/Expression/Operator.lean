namespace InterfaceCatalog

inductive BinaryOperator where
  | invalid
  | add | sub | mul | div | mod
  | equal | unequal | greater | less | greaterEqual | lessEqual
  | and | or
  | bitAnd | bitOr | bitXor | shiftLeft | shiftRight
  deriving DecidableEq

inductive UnaryOperator where
  | invalid | minus | plus | not | bitNot
  deriving DecidableEq

def BinaryOperator.all : List BinaryOperator :=
  [.invalid, .add, .sub, .mul, .div, .mod, .equal, .unequal, .greater, .less, .greaterEqual,
    .lessEqual, .and, .or, .bitAnd, .bitOr, .bitXor, .shiftLeft, .shiftRight]

def UnaryOperator.all : List UnaryOperator :=
  [.invalid, .minus, .plus, .not, .bitNot]

def BinaryOperator.symbol : BinaryOperator → String
  | .invalid => "?"
  | .add => "+"
  | .sub => "-"
  | .mul => "*"
  | .div => "/"
  | .mod => "%"
  | .equal => "=="
  | .unequal => "!="
  | .greater => ">"
  | .less => "<"
  | .greaterEqual => ">="
  | .lessEqual => "<="
  | .and => "&&"
  | .or => "||"
  | .bitAnd => "&"
  | .bitOr => "|"
  | .bitXor => "^"
  | .shiftLeft => "<<"
  | .shiftRight => ">>"

def UnaryOperator.symbol : UnaryOperator → String
  | .invalid => "?"
  | .minus => "-"
  | .plus => "+"
  | .not => "!"
  | .bitNot => "~"

/-- The level of an operator, from the loosest one on. -/
def BinaryOperator.level? : BinaryOperator → Option Nat
  | .invalid => none
  | .or => some 0
  | .and => some 1
  | .bitOr => some 2
  | .bitXor => some 3
  | .bitAnd => some 4
  | .equal | .unequal => some 5
  | .greater | .less | .greaterEqual | .lessEqual => some 6
  | .shiftLeft | .shiftRight => some 7
  | .add | .sub => some 8
  | .mul | .div | .mod => some 9

def BinaryOperator.powers? (o : BinaryOperator) : Option (Nat × Nat) :=
  o.level?.map fun l => (2 * l + 1, 2 * l + 2)

/-- The power of every prefix operator, above those of the binary ones. -/
def prefixPower : Nat := 21

end InterfaceCatalog
