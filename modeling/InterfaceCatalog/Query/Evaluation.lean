import InterfaceCatalog.Expression.Operation
import InterfaceCatalog.Query.Lookup
import InterfaceCatalog.Text.Qualified

namespace InterfaceCatalog

def ExpressionRecord.kind : ExpressionRecord → Kind
  | literal l => l.kind
  | unary .. => .unary
  | binary .. => .binary

namespace Catalog

/-- Copies a stored expression of at most `fuel` levels, if all its operands are there. -/
def treeWithin? (c : Catalog) : (fuel : Nat) → Id .expressions → Option Tree
  | 0, _ => none
  | fuel + 1, id =>
    match c.get? id with
    | none => none
    | some (.literal l) => some (.literal l)
    | some (.unary o t) => (c.treeWithin? fuel t).map (.unary o)
    | some (.binary o t u) =>
      match c.treeWithin? fuel t, c.treeWithin? fuel u with
      | some lhs, some rhs => some (.binary o lhs rhs)
      | _, _ => none

/-- The tree of a stored expression. No row of operands is longer than the number of
expressions. -/
def tree? (c : Catalog) (id : Id .expressions) : Option Tree :=
  c.treeWithin? c.store.expressions.slots.size id

def namedField? (c : Catalog) (name : String) : Option (View .enumFields) := do
  let (owner, field) ← splitLast? name
  let declared : View .typedecls ← c.findNamed? .enums none owner
  c.enumField? declared.record field

def definition (c : Catalog) (name : String) : Except EvaluationError (Id .expressions) :=
  let stored : Option (View .variables) :=
    (c.findNamed? .constants none name).or (c.findNamed? .globals none name)
  match stored with
  | some v =>
    if v.record.kind = .constant then
      match c.optionView? v.record.value with
      | some value => .ok value.id
      | none => .error (.notConstant name)
    else .error (.notConstant name)
  | none =>
    match (c.namedField? name).bind fun f => c.enumFieldValue? f.record true with
    | some value => .ok value.id
    | none => .error (.undefinedName name)

def restrict (mask : Mask) (v : Value) : Except EvaluationError Value :=
  if mask.intersects v.kind.mask then .ok v else .error (.maskMismatch mask v.kind)

/-- The value of a stored expression if at most `limit` expressions, the given one among them, are
evaluated within each other. -/
def evaluateWithin (c : Catalog) :
    (limit : Nat) → Id .expressions → Mask → Except EvaluationError Value
  | 0, _, _ => .error .tooDeep
  | limit + 1, id, mask =>
    let value : Except EvaluationError Value :=
      match c.get? id with
      | none => .error .invalidHandle
      | some (.literal (.value v)) => .ok v
      | some (.literal (.name n)) =>
        match c.definition n with
        | .error e => .error e
        | .ok target => c.evaluateWithin limit target mask
      | some (.unary o t) =>
        if o = .invalid then .error .invalidOperator
        else
          match c.evaluateWithin limit t o.operandMask with
          | .error e => .error e
          | .ok v => o.apply v
      | some (.binary o t u) =>
        if o = .invalid then .error .invalidOperator
        else
          match c.evaluateWithin limit t o.operandMask with
          | .error e => .error e
          | .ok v =>
            match o.shortcut? v.isTrue with
            | some b => .ok (.bool b)
            | none =>
              match c.evaluateWithin limit u o.operandMask with
              | .error e => .error e
              | .ok w => o.apply v w
    match value with
    | .error e => .error e
    | .ok v => restrict mask v

def evaluate (c : Catalog) (id : Id .expressions) (mask : Mask) : Except EvaluationError Value :=
  c.evaluateWithin maximumDepth id mask

end Catalog

end InterfaceCatalog
