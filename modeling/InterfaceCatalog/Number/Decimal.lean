import InterfaceCatalog.Number.Binary
import InterfaceCatalog.Text.Character

namespace InterfaceCatalog

/-- The number `digits * 10 ^ exponent`. -/
structure Decimal where
  digits : Nat
  exponent : Int
  deriving DecidableEq

/-- Beyond this power of ten every number rounds to infinity, and below its inverse to zero, in
both formats. -/
def Decimal.reach : Nat := 400

/-- The number of the nearest magnitude. A decimal out of reach is not expanded. -/
def Decimal.nearest (f : FloatFormat) (d : Decimal) : Nat :=
  let power := d.exponent + (Nat.toDigits 10 d.digits).length
  if d.digits = 0 ∨ power < -(Decimal.reach : Int) then 0
  else if (Decimal.reach : Int) < power then f.top
  else f.nearest (d.digits * Nat.pow 10 d.exponent.toNat * f.one) (Nat.pow 10 (-d.exponent).toNat)

def Decimal.toBinary (f : FloatFormat) (negative : Bool) (d : Decimal) : Binary f :=
  let index := d.nearest f
  if h : index < f.top then .finite negative ⟨index, h⟩ else .infinite negative

/-- Reads digits with a fraction and an exponent, both optional. The exponent needs a digit. -/
def Decimal.read? (text : List Char) : Option Decimal :=
  let whole := text.takeWhile isAsciiDigit
  let rest := text.dropWhile isAsciiDigit
  let fraction := match rest with
    | '.' :: rest => rest.takeWhile isAsciiDigit
    | _ => []
  let rest := match rest with
    | '.' :: rest => rest.dropWhile isAsciiDigit
    | _ => rest
  let number := ofDigits 10 (whole ++ fraction)
  let power (sign : Int) (digits : List Char) : Option Decimal :=
    if digits.isEmpty || !digits.all isAsciiDigit || (whole ++ fraction).isEmpty then none
    else some ⟨number, sign * ofDigits 10 digits - fraction.length⟩
  match rest with
  | [] => if (whole ++ fraction).isEmpty then none else some ⟨number, -fraction.length⟩
  | c :: rest =>
    if c = 'e' ∨ c = 'E' then
      match rest with
      | '-' :: digits => power (-1) digits
      | '+' :: digits => power 1 digits
      | digits => power 1 digits
    else none

/-- The decimal on the grid of `10 ^ exponent` next to `num / den` that rounds back to number
`index`: the nearer one if both neighbours do, the upper one at equal distance. -/
def Decimal.onGrid? (f : FloatFormat) (index num den : Nat) (exponent : Int) : Option Decimal :=
  let scaled := num * Nat.pow 10 (-exponent).toNat
  let step := den * Nat.pow 10 exponent.toNat
  let lower : Decimal := ⟨scaled / step, exponent⟩
  let upper : Decimal := ⟨scaled / step + 1, exponent⟩
  let remainder := scaled % step
  let below := lower.nearest f == index
  let above := upper.nearest f == index
  if below && (!above || 2 * remainder < step) then some lower
  else if above then some upper
  else none

/-- The first hit on the grids from `10 ^ exponent` on downwards. -/
def Decimal.search (f : FloatFormat) (index num den : Nat) (exact : Decimal) : Nat → Int → Decimal
  | 0, _ => exact
  | fuel + 1, exponent =>
    (Decimal.onGrid? f index num den exponent).getD
      (Decimal.search f index num den exact fuel (exponent - 1))

/-- The power of ten of the first digit of the positive number `num / den`. -/
def leadingPower (num den : Nat) : Int :=
  if den ≤ num then (Nat.toDigits 10 (num / den)).length - 1
  else -((Nat.toDigits 10 ((den - 1) / num)).length : Int)

/-- The fewest digits that round to number `index`, and of these the nearest ones. The exact
expansion ends the search. -/
def Decimal.shortest (f : FloatFormat) (index : Nat) : Decimal :=
  let num := f.units index
  let den := f.one
  if num = 0 then ⟨0, 0⟩
  else
    let first := leadingPower num den
    Decimal.search f index num den ⟨num * Nat.pow 5 f.scale, -f.scale⟩
      (first + f.scale + 1).toNat first

/-- The digits without closing zeros, and the power of ten of the place before the first one. -/
def Decimal.significant (d : Decimal) : List Char × Int :=
  let all := Nat.toDigits 10 d.digits
  let kept := (all.reverse.dropWhile (· == '0')).reverse
  (kept, d.exponent + all.length)

/-- Where floating point numbers are written with a point and no exponent: first digits of the
powers of ten from `least` up to and without `bound`. -/
structure PointRange where
  least : Int
  bound : Int

def pointRange : PointRange := ⟨-4, 16⟩

/-- A number by its significant digits, with at least one digit on each side of a point. -/
def Decimal.text (d : Decimal) : String :=
  let (digits, point) := d.significant
  if digits.isEmpty then "0.0"
  else if pointRange.least ≤ point - 1 ∧ point - 1 < pointRange.bound then
    if point ≤ 0 then "0." ++ String.ofList (List.replicate (-point).toNat '0' ++ digits)
    else if digits.length ≤ point then
      String.ofList (digits ++ List.replicate (point.toNat - digits.length) '0') ++ ".0"
    else String.ofList (digits.take point.toNat) ++ "." ++ String.ofList (digits.drop point.toNat)
  else
    let fraction := if digits.tail.isEmpty then "" else "." ++ String.ofList digits.tail
    String.ofList (digits.take 1) ++ fraction ++ "e" ++ toString (point - 1)

def Binary.text {f : FloatFormat} : Binary f → String
  | .nan => "NaN"
  | .infinite s => if s then "-inf" else "inf"
  | .finite s i => (if s then "-" else "") ++ (Decimal.shortest f i).text

end InterfaceCatalog
