namespace InterfaceCatalog

structure FloatFormat where
  fractionBits : Nat
  exponentBits : Nat

def FloatFormat.single : FloatFormat := ⟨23, 8⟩

def FloatFormat.double : FloatFormat := ⟨52, 11⟩

/-- The number of magnitudes that share an exponent. -/
def FloatFormat.span (f : FloatFormat) : Nat :=
  Nat.pow 2 f.fractionBits

/-- The number of infinity. -/
def FloatFormat.top (f : FloatFormat) : Nat :=
  (Nat.pow 2 f.exponentBits - 1) * f.span

/-- The least positive magnitude is `2 ^ -scale`: the unit in which magnitudes are counted. -/
def FloatFormat.scale (f : FloatFormat) : Nat :=
  Nat.pow 2 (f.exponentBits - 1) - 2 + f.fractionBits

def FloatFormat.one (f : FloatFormat) : Nat :=
  Nat.pow 2 f.scale

def FloatFormat.units (f : FloatFormat) (index : Nat) : Nat :=
  let exponent := index / f.span
  let fraction := index % f.span
  if exponent = 0 then fraction else (f.span + fraction) * Nat.pow 2 (exponent - 1)

/-- Whether `num / den` units round to number `index` or to one below it. At the midpoint of two
magnitudes the even number is taken. -/
def FloatFormat.roundsBelow (f : FloatFormat) (num den index : Nat) : Bool :=
  let middle := den * (f.units index + f.units (index + 1))
  2 * num < middle || (2 * num == middle && index % 2 == 0)

/-- The least of the `2 ^ bits` numbers from `low` on for which `p` holds, the last if for none. -/
def bisect (p : Nat → Bool) : (bits low : Nat) → Nat
  | 0, low => low
  | bits + 1, low =>
    let next := low + Nat.pow 2 bits
    if p (next - 1) then bisect p bits low else bisect p bits next

def FloatFormat.nearest (f : FloatFormat) (num den : Nat) : Nat :=
  bisect (fun index => f.top ≤ index || f.roundsBelow num den index)
    (f.exponentBits + f.fractionBits) 0

/-- A number of a format, an infinity, or no number. The finite magnitudes are numbered in
increasing order. -/
inductive Binary (f : FloatFormat) where
  | nan
  | infinite (negative : Bool)
  | finite (negative : Bool) (index : Fin f.top)
  deriving DecidableEq

abbrev Single := Binary .single

abbrev Double := Binary .double

namespace Binary

variable {f g : FloatFormat}

def round (negative : Bool) (num den : Nat) : Binary f :=
  let index := f.nearest num den
  if h : index < f.top then finite negative ⟨index, h⟩ else infinite negative

def signedUnits (negative : Bool) (index : Nat) : Int :=
  if negative then -(f.units index : Int) else f.units index

def ofInt (n : Int) : Binary f :=
  round (n < 0) (n.natAbs * f.one) 1

def convert : Binary f → Binary g
  | nan => nan
  | infinite s => infinite s
  | finite s i => round s (f.units i * g.one) f.one

def neg : Binary f → Binary f
  | nan => nan
  | infinite s => infinite !s
  | finite s i => finite (!s) i

/-- A sum that is exactly zero is negative only if both terms are. -/
def add : Binary f → Binary f → Binary f
  | nan, _ | _, nan => nan
  | infinite s, infinite t => if s = t then infinite s else nan
  | infinite s, finite .. | finite .., infinite s => infinite s
  | finite s i, finite t j =>
    let sum : Int := signedUnits (f := f) s i + signedUnits (f := f) t j
    round (if sum = 0 then s && t else sum < 0) sum.natAbs 1

def sub (x y : Binary f) : Binary f :=
  add x (neg y)

def mul : Binary f → Binary f → Binary f
  | nan, _ | _, nan => nan
  | infinite s, infinite t => infinite (s != t)
  | infinite s, finite t i | finite t i, infinite s =>
    if f.units i = 0 then nan else infinite (s != t)
  | finite s i, finite t j => round (s != t) (f.units i * f.units j) f.one

/-- A quotient by zero is infinite, and that of zero by zero is no number. -/
def div : Binary f → Binary f → Binary f
  | nan, _ | _, nan => nan
  | infinite _, infinite _ => nan
  | infinite s, finite t _ => infinite (s != t)
  | finite s _, infinite t => round (s != t) 0 1
  | finite s i, finite t j =>
    if f.units j = 0 then
      if f.units i = 0 then nan else infinite (s != t)
    else round (s != t) (f.units i * f.one) (f.units j)

def isZero : Binary f → Bool
  | finite _ i => f.units i == 0
  | _ => false

/-- The order of two numbers, none if one of them is no number. The two zeros are equal. -/
def compare? : Binary f → Binary f → Option Ordering
  | nan, _ | _, nan => none
  | infinite s, infinite t => some (compare (if s then 0 else 1) (if t then 0 else 1 : Nat))
  | infinite s, finite .. => some (if s then .lt else .gt)
  | finite .., infinite s => some (if s then .gt else .lt)
  | finite s i, finite t j => some (compare (signedUnits (f := f) s i) (signedUnits (f := f) t j))

/-- Equality of numbers: no number equals itself if it is none, and the two zeros are equal. -/
def equal (x y : Binary f) : Bool :=
  compare? x y == some .eq

end Binary

end InterfaceCatalog
