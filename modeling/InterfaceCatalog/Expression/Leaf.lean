import InterfaceCatalog.Expression.Value

namespace InterfaceCatalog

def splitSign : List Char → Bool × List Char
  | '-' :: cs => (true, cs)
  | '+' :: cs => (false, cs)
  | cs => (false, cs)

/-- The number of a format that a text denotes, infinity and no number at all included. -/
def Binary.read? (f : FloatFormat) (text : String) : Option (Binary f) :=
  let (negative, cs) := splitSign text.toList
  match String.ofList (cs.map asciiLower) with
  | "inf" | "infinity" => some (.infinite negative)
  | "nan" => some .nan
  | _ => (Decimal.read? cs).map (·.toBinary f negative)

def Integer.read? (k : IntegerKind) (text : String) : Option Integer :=
  let (negative, cs) := splitSign text.toList
  if cs.isEmpty || !cs.all isAsciiDigit then none
  else
    let n : Int := ofDigits 10 cs
    Integer.of? k (if negative then -n else n)

/-- The literal of a kind that a text denotes. Texts and names stand for themselves. -/
def Literal.read? (kind : Kind) (text : String) : Option Literal :=
  match kind, text.toList with
  | .integer k, _ => (Integer.read? k text).map fun n => .value (.integer n)
  | .float, _ => (Binary.read? .single text).map fun x => .value (.float x)
  | .double, _ => (Binary.read? .double text).map fun x => .value (.double x)
  | .string, _ => some (.value (.string text))
  | .char, [c] => some (.value (.char c))
  | .bool, _ => some (.value (.bool (text == "true")))
  | .null, _ => some (.value .null)
  | .name, _ => some (.name text)
  | _, _ => none

end InterfaceCatalog
