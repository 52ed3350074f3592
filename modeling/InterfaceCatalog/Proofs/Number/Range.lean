import InterfaceCatalog.Number.Integer
import InterfaceCatalog.Proofs.Number.Binary
import Mathlib.Algebra.Order.Field.Rat
import Mathlib.Algebra.Order.AbsoluteValue.Basic
import Mathlib.Order.Nat
import Mathlib.Tactic.FieldSimp
import Mathlib.Tactic.Linarith
import Mathlib.Tactic.Positivity
import Mathlib.Tactic.Ring

namespace InterfaceCatalog

namespace FloatFormat

variable {f : FloatFormat}

theorem one_pos : 0 < f.one :=
  Nat.pow_pos (by decide)

/-- The middle between the greatest magnitude and the one that would come after it. -/
def limit (f : FloatFormat) : ℚ :=
  (f.units (f.top - 1) + f.units f.top) / (2 * f.one)

/-- The first magnitude too great is an even one, to which a number in the middle is rounded. -/
structure IsEven (f : FloatFormat) : Prop where
  pos : 0 < f.top
  even : f.top % 2 = 0

theorem single_isEven : single.IsEven := ⟨by decide, by decide⟩

theorem double_isEven : double.IsEven := ⟨by decide +kernel, by decide +kernel⟩

theorem roundsBelow_mono {num den i j : Nat} (hden : 0 < den) (hle : i ≤ j)
    (h : f.roundsBelow num den i) : f.roundsBelow num den j := by
  obtain rfl | hlt := Nat.eq_or_lt_of_le hle
  · exact h
  · have hmiddle : f.units i + f.units (i + 1) < f.units j + f.units (j + 1) :=
      Nat.add_lt_add (units_strictMono hlt) (units_strictMono (Nat.succ_lt_succ hlt))
    have hgrows := Nat.mul_lt_mul_of_pos_left hmiddle hden
    unfold roundsBelow at h ⊢
    simp only [Bool.or_eq_true, Bool.and_eq_true, decide_eq_true_eq, beq_iff_eq] at h ⊢
    omega

/-- The nearest magnitude is the first one that a number rounds to or below. -/
theorem nearest_le_iff {num den j : Nat} (hden : 0 < den) (hj : j < f.top) :
    f.nearest num den ≤ j ↔ f.roundsBelow num den j := by
  let p (index : Nat) : Bool := f.top ≤ index || f.roundsBelow num den index
  have hmono : ∀ i j, i ≤ j → p i → p j := by
    intro i j hle h
    simp only [p, Bool.or_eq_true, decide_eq_true_eq] at h ⊢
    exact h.imp (fun h => Nat.le_trans h hle) (roundsBelow_mono hden hle)
  have htop : p f.top := by simp [p]
  have hexists : ∃ index, p index := ⟨_, htop⟩
  obtain ⟨first, hfirst, hleast⟩ : ∃ first, p first ∧ ∀ index, p index → first ≤ index :=
    ⟨_, Nat.find_spec hexists, fun _ => Nat.find_min' hexists⟩
  have hp : p = fun index => decide (first ≤ index) := by
    funext index
    rw [Bool.eq_iff_iff, decide_eq_true_eq]
    exact ⟨hleast index, fun hle => hmono _ _ hle hfirst⟩
  have hbound : first < 0 + 2 ^ (f.exponentBits + f.fractionBits) := by
    have hle := hleast _ htop
    have hlt := f.top_lt
    omega
  have hnearest : f.nearest num den = first := by
    change bisect p _ 0 = first
    rw [hp]
    exact bisect_eq (Nat.zero_le _) hbound
  have hrounds : p j ↔ f.roundsBelow num den j := by
    simp [p, hj]
  rw [hnearest, ← hrounds, hp, decide_eq_true_eq]

theorem nearest_lt_top_iff (hf : f.IsEven) {num den : Nat} (hden : 0 < den) :
    f.nearest num den < f.top ↔ (num : ℚ) / (den * f.one) < f.limit := by
  have hpos := hf.pos
  have heven := hf.even
  have hlast : f.nearest num den < f.top ↔ f.roundsBelow num den (f.top - 1) := by
    rw [← nearest_le_iff hden (by omega)]
    omega
  have hsucc : f.top - 1 + 1 = f.top := by omega
  have hodd : ((f.top - 1) % 2 == 0) = false := by
    rw [beq_eq_false_iff_ne]
    omega
  have hone := f.one_pos
  have hcast : 2 * num < den * (f.units (f.top - 1) + f.units f.top) ↔
      (2 * num : ℚ) < den * (f.units (f.top - 1) + f.units f.top) := by
    exact_mod_cast Iff.rfl
  rw [hlast, roundsBelow, hsucc, hodd, Bool.and_false, Bool.or_false, decide_eq_true_eq,
    hcast, limit, div_lt_div_iff₀ (by positivity) (by positivity),
    ← mul_lt_mul_iff_left₀ (Nat.cast_pos.mpr hone : (0 : ℚ) < f.one)]
  ring_nf

end FloatFormat

namespace Binary

variable {f g : FloatFormat} {x y : Binary f}

def IsFinite (x : Binary f) : Prop :=
  ∃ s i, x = finite s i

/-- The number that a finite one stands for. -/
def amount : Binary f → ℚ
  | finite s i => signedUnits (f := f) s i / f.one
  | _ => 0

theorem not_isFinite_nan : ¬ (nan : Binary f).IsFinite := by
  rintro ⟨s, i, h⟩
  cases h

theorem not_isFinite_infinite (s : Bool) : ¬ (infinite s : Binary f).IsFinite := by
  rintro ⟨t, i, h⟩
  cases h

theorem natAbs_signedUnits (s : Bool) (i : Nat) :
    (signedUnits (f := f) s i).natAbs = f.units i := by
  cases s <;> simp [signedUnits]

theorem abs_amount (s : Bool) (i : Fin f.top) :
    |(finite s i : Binary f).amount| = f.units i / f.one := by
  have hone : (0 : ℚ) < f.one := Nat.cast_pos.mpr f.one_pos
  have habs : |((signedUnits (f := f) s i : Int) : ℚ)| = f.units i := by
    rw [← Int.cast_abs, Int.abs_eq_natAbs, natAbs_signedUnits]
    simp
  rw [amount, abs_div, habs, abs_of_pos hone]

theorem round_isFinite_iff (hf : f.IsEven) {num den : Nat} (s : Bool) (hden : 0 < den) :
    (round s num den : Binary f).IsFinite ↔ (num : ℚ) / (den * f.one) < f.limit := by
  rw [← FloatFormat.nearest_lt_top_iff hf hden]
  unfold round
  dsimp only
  split
  next h => exact iff_of_true ⟨_, _, rfl⟩ h
  next h => exact iff_of_false (not_isFinite_infinite s) h

theorem amount_lt_limit (hf : f.IsEven) (hx : x.IsFinite) : |x.amount| < f.limit := by
  obtain ⟨s, i, rfl⟩ := hx
  have hone : (0 : ℚ) < f.one := Nat.cast_pos.mpr f.one_pos
  have hpos := hf.pos
  have hlast : f.units i ≤ f.units (f.top - 1) := FloatFormat.units_strictMono.monotone (by omega)
  have htop : f.units i < f.units f.top := FloatFormat.units_strictMono i.isLt
  have hlastCast : (f.units i : ℚ) ≤ f.units (f.top - 1) := Nat.cast_le.mpr hlast
  have htopCast : (f.units i : ℚ) < f.units f.top := Nat.cast_lt.mpr htop
  rw [abs_amount, FloatFormat.limit, div_lt_div_iff₀ hone (by positivity)]
  nlinarith

theorem neg_isFinite (hx : x.IsFinite) : x.neg.IsFinite := by
  obtain ⟨s, i, rfl⟩ := hx
  exact ⟨_, _, rfl⟩

theorem amount_neg (x : Binary f) : x.neg.amount = -x.amount := by
  cases x with
  | nan | infinite => exact neg_zero.symm
  | finite s i => cases s <;> simp [neg, amount, signedUnits, neg_div]

theorem add_isFinite_iff (hf : f.IsEven) (hx : x.IsFinite) (hy : y.IsFinite) :
    (x.add y).IsFinite ↔ |x.amount + y.amount| < f.limit := by
  obtain ⟨s, i, rfl⟩ := hx
  obtain ⟨t, j, rfl⟩ := hy
  have hone : (0 : ℚ) < f.one := Nat.cast_pos.mpr f.one_pos
  have hsum : (finite s i : Binary f).amount + (finite t j : Binary f).amount =
      ((signedUnits (f := f) s i + signedUnits (f := f) t j : Int) : ℚ) / f.one := by
    rw [Int.cast_add, add_div]
    rfl
  refine (round_isFinite_iff hf _ Nat.one_pos).trans ?_
  rw [hsum, abs_div, abs_of_pos hone, Nat.cast_one, one_mul, Nat.cast_natAbs, Int.cast_abs]

theorem sub_isFinite_iff (hf : f.IsEven) (hx : x.IsFinite) (hy : y.IsFinite) :
    (x.sub y).IsFinite ↔ |x.amount - y.amount| < f.limit := by
  rw [sub, add_isFinite_iff hf hx (neg_isFinite hy), amount_neg, sub_eq_add_neg]

theorem mul_isFinite_iff (hf : f.IsEven) (hx : x.IsFinite) (hy : y.IsFinite) :
    (x.mul y).IsFinite ↔ |x.amount * y.amount| < f.limit := by
  obtain ⟨s, i, rfl⟩ := hx
  obtain ⟨t, j, rfl⟩ := hy
  rw [abs_mul, abs_amount, abs_amount]
  refine (round_isFinite_iff hf _ f.one_pos).trans ?_
  rw [Nat.cast_mul, div_mul_div_comm]

/-- A quotient by zero is never finite. -/
theorem div_isFinite_iff (hf : f.IsEven) (hx : x.IsFinite) (hy : y.IsFinite) :
    (x.div y).IsFinite ↔ y.amount ≠ 0 ∧ |x.amount / y.amount| < f.limit := by
  obtain ⟨s, i, rfl⟩ := hx
  obtain ⟨t, j, rfl⟩ := hy
  have hone : (0 : ℚ) < f.one := Nat.cast_pos.mpr f.one_pos
  have hzero : (finite t j : Binary f).amount = 0 ↔ f.units j = 0 := by
    rw [← abs_eq_zero, abs_amount, div_eq_zero_iff, or_iff_left hone.ne', Nat.cast_eq_zero]
  rw [ne_eq, hzero, abs_div, abs_amount, abs_amount, div_div_div_cancel_right₀ hone.ne']
  unfold div
  dsimp only
  split
  next hunits =>
    refine iff_of_false ?_ fun h => h.1 hunits
    split
    next => exact not_isFinite_nan
    next => exact not_isFinite_infinite _
  next hunits =>
    rw [round_isFinite_iff hf _ (Nat.pos_of_ne_zero hunits), and_iff_right hunits, Nat.cast_mul,
      mul_div_mul_right _ _ hone.ne']

theorem convert_isFinite_iff (hg : g.IsEven) (x : Binary f) :
    (x.convert : Binary g).IsFinite ↔ x.IsFinite ∧ |x.amount| < g.limit := by
  cases x with
  | nan => exact iff_of_false not_isFinite_nan fun h => not_isFinite_nan h.1
  | infinite s => exact iff_of_false (not_isFinite_infinite s) fun h => not_isFinite_infinite s h.1
  | finite s i =>
    have hone : (0 : ℚ) < g.one := Nat.cast_pos.mpr g.one_pos
    rw [and_iff_right ⟨s, i, rfl⟩, abs_amount]
    refine (round_isFinite_iff hg s f.one_pos).trans ?_
    rw [Nat.cast_mul, mul_div_mul_right _ _ hone.ne']

theorem ofInt_isFinite_iff (hf : f.IsEven) (n : Int) :
    (ofInt n : Binary f).IsFinite ↔ |(n : ℚ)| < f.limit := by
  have hone : (0 : ℚ) < f.one := Nat.cast_pos.mpr f.one_pos
  refine (round_isFinite_iff hf _ Nat.one_pos).trans ?_
  rw [Nat.cast_mul, Nat.cast_one, one_mul, mul_div_cancel_right₀ _ hone.ne', Nat.cast_natAbs,
    Int.cast_abs]

end Binary

namespace FloatFormat

/-- A bound of whole numbers below the first magnitude that is too great. -/
theorem div_lt_limit {f : FloatFormat} {num den : Nat} (hden : 0 < den)
    (h : num * (2 * f.one) < (f.units (f.top - 1) + f.units f.top) * den) :
    (num : ℚ) / den < f.limit := by
  have hone := f.one_pos
  rw [limit, div_lt_div_iff₀ (Nat.cast_pos.mpr hden) (by positivity)]
  exact_mod_cast h

/-- Every single is within the range of doubles. -/
theorem single_limit_lt : single.limit < double.limit := by
  have hone := single.one_pos
  have hsingle : single.limit =
    ((single.units (single.top - 1) + single.units single.top : Nat) : ℚ) /
      (2 * single.one : Nat) := by
    unfold limit
    push_cast
    rfl
  rw [hsingle]
  exact div_lt_limit (by positivity) (by decide +kernel)

/-- And so is every integer. -/
theorem holds_lt_limit {k : IntegerKind} {n : Int} (h : k.Holds n) : |(n : ℚ)| < double.limit := by
  have hbound : n.natAbs ≤ 2 ^ 64 := by
    obtain ⟨hlow, hhigh⟩ := h
    have hleast : -(2 ^ 64) ≤ k.least ∧ k.greatest ≤ 2 ^ 64 := by
      cases k <;> decide
    omega
  have hlimit : ((2 ^ 64 : Nat) : ℚ) / (1 : Nat) < double.limit :=
    div_lt_limit Nat.one_pos (by decide +kernel)
  have hcast : |(n : ℚ)| = (n.natAbs : ℚ) := by
    rw [Nat.cast_natAbs, Int.cast_abs]
  rw [Nat.cast_one, div_one] at hlimit
  exact hcast ▸ lt_of_le_of_lt (Nat.cast_le.mpr hbound) hlimit

end FloatFormat

end InterfaceCatalog
