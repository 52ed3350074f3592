import InterfaceCatalog.Expression.Operator
import InterfaceCatalog.Expression.Value

namespace InterfaceCatalog

/-- The most expressions that an evaluation enters within each other, the given one included. -/
def maximumDepth : Nat := 256

inductive EvaluationError where
  | maskMismatch (expected : Mask) (found : Kind)
  | mismatchedOperands (lhs rhs : Kind)
  | divisionByZero
  | overflow
  | invalidShift
  | invalidOperator
  | undefinedName (name : String)
  | notConstant (name : String)
  | tooDeep
  | invalidHandle
  deriving DecidableEq

def EvaluationError.message : EvaluationError → String
  | maskMismatch expected found => s!"expected a value in {expected.text}, found {found.text}"
  | mismatchedOperands lhs rhs => s!"mismatched operands {lhs.text} and {rhs.text}"
  | divisionByZero => "division by zero"
  | overflow => "the result does not fit its type"
  | invalidShift => "shift amount out of range"
  | invalidOperator => "invalid operator"
  | undefinedName name => s!"`{name}` does not name a constant or an enum field"
  | notConstant name => s!"`{name}` is not a constant"
  | tooDeep => s!"the evaluation is nested deeper than {maximumDepth} levels"
  | invalidHandle => "the expression refers to a node that no longer exists"

inductive Number where
  | integer (n : Int)
  | floating (x : Double)

def Number.toDouble : Number → Double
  | integer n => .ofInt n
  | floating x => x

/-- The order of two numbers, floating if one of them is. -/
def Number.compare? : Number → Number → Option Ordering
  | integer m, integer n => some (Ord.compare m n)
  | a, b => a.toDouble.compare? b.toDouble

def Value.number? : Value → Option Number
  | .integer n => some (.integer n.val)
  | .float x => some (.floating x.convert)
  | .double x => some (.floating x)
  | _ => none

/-- Numbers other than zero are true, and so is the truth value. -/
def Value.isTrue (v : Value) : Bool :=
  match v.number? with
  | some (.integer n) => n != 0
  | some (.floating x) => !x.isZero
  | none => v = .bool true

def integerValue (k : IntegerKind) (n : Int) : Except EvaluationError Value :=
  match Integer.of? k n with
  | some i => .ok (.integer i)
  | none => .error .overflow

namespace UnaryOperator

def operandMask : UnaryOperator → Mask
  | invalid => .none
  | minus => .signed
  | plus => .number
  | not => .truth
  | bitNot => .integer

def apply (o : UnaryOperator) (v : Value) : Except EvaluationError Value :=
  match o, v with
  | invalid, _ => .error .invalidOperator
  | plus, v => .ok v
  | not, v => .ok (.bool !v.isTrue)
  | minus, .integer n => if n.kind.isSigned then integerValue n.kind (-n.val) else .error .overflow
  | minus, .float x => .ok (.float x.neg)
  | minus, .double x => .ok (.double x.neg)
  | minus, _ => .error .overflow
  | bitNot, .integer n => .ok (.integer n.complement)
  | bitNot, v => .ok v

end UnaryOperator

namespace BinaryOperator

def operandMask : BinaryOperator → Mask
  | invalid => .none
  | add | sub | mul | div | greater | less | greaterEqual | lessEqual => .number
  | equal | unequal => .all
  | and | or => .truth
  | mod | bitAnd | bitOr | bitXor | shiftLeft | shiftRight => .integer

/-- Whether two values are equal. Numbers are compared with numbers, other values with values of
their kind. -/
def valuesEqual (v w : Value) : Except EvaluationError Bool :=
  match v.number?, w.number? with
  | some a, some b => .ok (a.compare? b = some .eq)
  | _, _ =>
    match v, w with
    | .string s, .string t => .ok (s = t)
    | .char c, .char d => .ok (c = d)
    | .bool a, .bool b => .ok (a = b)
    | .null, .null => .ok true
    | _, _ => .error (.mismatchedOperands v.kind w.kind)

def accepts : BinaryOperator → Ordering → Bool
  | greater, r => r.isGT
  | less, r => r.isLT
  | greaterEqual, r => r.isGE
  | _, r => r.isLE

def compareValues (o : BinaryOperator) (v w : Value) : Except EvaluationError Value :=
  match v.number?, w.number? with
  | some a, some b => .ok (.bool ((a.compare? b).any o.accepts))
  | _, _ => .error (.mismatchedOperands v.kind w.kind)

/-- The sum, the difference, the product and the quotient of two words are checked; no other
operation looks at what is lost. -/
def onWords (o : BinaryOperator) (x y : Wide) : Except EvaluationError Wide :=
  match o with
  | add => if x.saddOverflow y then .error .overflow else .ok (x + y)
  | sub => if x.ssubOverflow y then .error .overflow else .ok (x - y)
  | mul => if x.smulOverflow y then .error .overflow else .ok (x * y)
  | div =>
    if y = 0 then .error .divisionByZero
    else if x.sdivOverflow y then .error .overflow
    else .ok (x.sdiv y)
  | mod => if y = 0 then .error .divisionByZero else .ok (x.srem y)
  | bitAnd => .ok (x &&& y)
  | bitOr => .ok (x ||| y)
  | bitXor => .ok (x ^^^ y)
  | _ => .error .invalidOperator

def floating (o : BinaryOperator) (x y : Double) : Double :=
  match o with
  | add => x.add y
  | sub => x.sub y
  | mul => x.mul y
  | _ => x.div y

/-- Integers shifted by a number of bits below the width of the left one. -/
def shift (o : BinaryOperator) (m n : Integer) : Except EvaluationError Value :=
  if 0 ≤ n.val ∧ n.val < m.kind.width then
    if o = shiftLeft then integerValue m.kind (m.wide <<< n.val.toNat).toInt
    else integerValue m.kind (m.wide.sshiftRight n.val.toNat).toInt
  else .error .invalidShift

def arithmetic (o : BinaryOperator) (v w : Value) : Except EvaluationError Value :=
  match v, w with
  | .integer m, .integer n =>
    match onWords o m.wide n.wide with
    | .error e => .error e
    | .ok r => integerValue (m.kind.promote n.kind) r.toInt
  | _, _ =>
    match v.number?, w.number? with
    | some a, some b =>
      let r := floating o a.toDouble b.toDouble
      if v.kind = .double ∨ w.kind = .double then .ok (.double r) else .ok (.float r.convert)
    | _, _ => .error (.mismatchedOperands v.kind w.kind)

def integral (o : BinaryOperator) (v w : Value) : Except EvaluationError Value :=
  match v, w with
  | .integer m, .integer n =>
    if o = shiftLeft ∨ o = shiftRight then shift o m n
    else
      match onWords o m.wide n.wide with
      | .error e => .error e
      | .ok r => integerValue (m.kind.promote n.kind) r.toInt
  | _, _ => .error (.mismatchedOperands v.kind w.kind)

/-- The answer of a logical operator that does not depend on the right operand. -/
def shortcut? (o : BinaryOperator) (left : Bool) : Option Bool :=
  match o with
  | and => if left then none else some false
  | or => if left then some true else none
  | _ => none

def apply (o : BinaryOperator) (v w : Value) : Except EvaluationError Value :=
  match o with
  | invalid => .error .invalidOperator
  | and | or => .ok (.bool w.isTrue)
  | equal => (valuesEqual v w).map .bool
  | unequal => (valuesEqual v w).map fun b => .bool !b
  | greater | less | greaterEqual | lessEqual => compareValues o v w
  | add | sub | mul | div => arithmetic o v w
  | mod | bitAnd | bitOr | bitXor | shiftLeft | shiftRight => integral o v w

end BinaryOperator

end InterfaceCatalog
