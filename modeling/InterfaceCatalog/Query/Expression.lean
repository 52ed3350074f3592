import InterfaceCatalog.Query.Evaluation

namespace InterfaceCatalog

namespace ExpressionRecord

def literal? : ExpressionRecord → Option Literal
  | literal l => some l
  | unary .. | binary .. => none

def unaryOperator : ExpressionRecord → UnaryOperator
  | unary o _ => o
  | literal _ | binary .. => .invalid

def binaryOperator : ExpressionRecord → BinaryOperator
  | binary o _ _ => o
  | literal _ | unary .. => .invalid

end ExpressionRecord

namespace Catalog

def unaryOperand? (c : Catalog) : ExpressionRecord → Option (View .expressions)
  | .unary _ t => c.view? t
  | .literal _ | .binary .. => none

def binaryLhs? (c : Catalog) : ExpressionRecord → Option (View .expressions)
  | .binary _ t _ => c.view? t
  | .literal _ | .unary .. => none

def binaryRhs? (c : Catalog) : ExpressionRecord → Option (View .expressions)
  | .binary _ _ u => c.view? u
  | .literal _ | .unary .. => none

/-- The canonical text of a stored expression. -/
def expressionText? (c : Catalog) (id : Id .expressions) : Option String :=
  (c.tree? id).map Tree.text

end Catalog

end InterfaceCatalog
