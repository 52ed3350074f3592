import InterfaceCatalog.Expression.Operator
import InterfaceCatalog.Expression.Value

namespace InterfaceCatalog

inductive Tree where
  | literal (l : Literal)
  | unary (operator : UnaryOperator) (operand : Tree)
  | binary (operator : BinaryOperator) (lhs rhs : Tree)
  deriving DecidableEq

namespace Tree

def kind : Tree → Kind
  | literal l => l.kind
  | unary .. => .unary
  | binary .. => .binary

def isCompound : Tree → Bool
  | literal _ => false
  | unary .. | binary .. => true

/-- Equality of trees, where floating point leaves are compared as numbers. -/
def equal : Tree → Tree → Bool
  | literal l, literal m => l.equal m
  | unary o t, unary p u => o = p && t.equal u
  | binary o s t, binary p u v => o = p && s.equal u && t.equal v
  | _, _ => false

def startsWithSign (text : String) : Bool :=
  text.toList.head?.any fun c => c == '-' || c == '+'

def enclose (compound : Bool) (text : String) : String :=
  if compound || startsWithSign text then "(" ++ text ++ ")" else text

def text : Tree → String
  | literal l => l.text
  | unary o t => o.symbol ++ enclose t.isCompound t.text
  | binary o s t =>
    enclose s.isCompound s.text ++ " " ++ o.symbol ++ " " ++ enclose t.isCompound t.text

end Tree

end InterfaceCatalog
