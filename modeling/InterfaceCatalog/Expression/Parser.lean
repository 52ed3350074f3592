import InterfaceCatalog.Expression.Token

namespace InterfaceCatalog

def Tokens.size : Tokens → Nat
  | .finish _ | .fault _ => 0
  | .token _ _ rest => rest.size + 1

def Tokens.offset : Tokens → Nat
  | .finish offset | .token _ offset _ => offset
  | .fault _ => 0

/-- The tokens after the first one; at the end of the text there is no progress. -/
def Tokens.advance : Tokens → Except SyntaxError Tokens
  | .finish offset => .ok (.finish offset)
  | .fault e => .error e
  | .token _ _ (.fault e) => .error e
  | .token _ _ rest => .ok rest

mutual

/-- An operand and the operators after it that bind at least with `power`. -/
def parseExpression : (fuel power : Nat) → Tokens → Except SyntaxError (Tree × Tokens)
  | 0, _, ts => .error (.expected .expression ts.offset)
  | fuel + 1, power, ts => do
    let (lhs, ts) ← parseOperand fuel ts
    parseOperators fuel power lhs ts

def parseOperand : (fuel : Nat) → Tokens → Except SyntaxError (Tree × Tokens)
  | 0, ts => .error (.expected .expression ts.offset)
  | fuel + 1, ts => do
    let rest ← ts.advance
    match ts with
    | .token t offset _ =>
      match t with
      | .literal l => .ok (.literal l, rest)
      | .opening =>
        let (inner, rest) ← parseExpression fuel 0 rest
        match rest with
        | .token .closing _ _ => do
          let rest ← rest.advance
          .ok (inner, rest)
        | _ => .error (.expected .closing rest.offset)
      | t =>
        match t.prefix? with
        | some o => do
          let (operand, rest) ← parseExpression fuel prefixPower rest
          .ok (.unary o operand, rest)
        | none => .error (.expected .expression offset)
    | _ => .error (.expected .expression ts.offset)

/-- The operators that follow the tree `lhs`, grouped to the left. -/
def parseOperators : (fuel power : Nat) → Tree → Tokens → Except SyntaxError (Tree × Tokens)
  | 0, _, _, ts => .error (.expected .expression ts.offset)
  | fuel + 1, power, lhs, ts =>
    match ts with
    | .token t _ _ =>
      match t.binary? with
      | none => .ok (lhs, ts)
      | some o =>
        match o.powers? with
        | none => .ok (lhs, ts)
        | some (left, right) =>
          if left < power then .ok (lhs, ts)
          else do
            let rest ← ts.advance
            let (rhs, rest) ← parseExpression fuel right rest
            parseOperators fuel power (.binary o lhs rhs) rest
    | _ => .ok (lhs, ts)

end

/-- Reads a whole text as one expression. -/
def Tree.parse (text : String) : Except SyntaxError Tree := do
  let ts := tokens text
  match ts with
  | .fault e => .error e
  | _ =>
    let (tree, rest) ← parseExpression (3 * ts.size + 3) 0 ts
    match rest with
    | .finish _ => .ok tree
    | _ => .error (.trailingInput rest.offset)

end InterfaceCatalog
