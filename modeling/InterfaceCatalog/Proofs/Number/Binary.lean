import InterfaceCatalog.Number.Binary
import Mathlib.Algebra.Group.Nat.Defs
import Mathlib.Order.Monotone.Basic

namespace InterfaceCatalog

theorem bisect_eq {i bits low : Nat} (hlow : low ≤ i) (hhigh : i < low + 2 ^ bits) :
    bisect (fun j => decide (i ≤ j)) bits low = i := by
  induction bits generalizing low with
  | zero =>
    unfold bisect
    omega
  | succ bits ih =>
    have hpos : 0 < 2 ^ bits := Nat.pow_pos (by decide)
    rw [Nat.pow_succ] at hhigh
    unfold bisect
    simp only [Nat.pow_eq, decide_eq_true_eq]
    split
    next hle => exact ih hlow (by omega)
    next hgt => exact ih (by omega) (by omega)

namespace FloatFormat

variable {f : FloatFormat}

theorem span_pos : 0 < f.span :=
  Nat.pow_pos (by decide)

theorem units_eq {exponent fraction : Nat} (hfraction : fraction < f.span) :
    f.units (f.span * exponent + fraction) =
      if exponent = 0 then fraction else (f.span + fraction) * 2 ^ (exponent - 1) := by
  have hdiv : (f.span * exponent + fraction) / f.span = exponent := by
    rw [Nat.mul_add_div f.span_pos, Nat.div_eq_of_lt hfraction, Nat.add_zero]
  have hmod : (f.span * exponent + fraction) % f.span = fraction := by
    rw [Nat.mul_add_mod, Nat.mod_eq_of_lt hfraction]
  unfold units
  simp only [hdiv, hmod, Nat.pow_eq]

theorem units_lt_succ (index : Nat) : f.units index < f.units (index + 1) := by
  have hspan := f.span_pos
  have hindex := Nat.div_add_mod index f.span
  have hfraction := Nat.mod_lt index hspan
  generalize index / f.span = exponent at hindex
  generalize index % f.span = fraction at hindex hfraction
  subst hindex
  by_cases hwrap : fraction + 1 < f.span
  · -- the next fraction of the same exponent
    rw [Nat.add_assoc, units_eq hfraction, units_eq hwrap]
    by_cases hzero : exponent = 0
    · simp [hzero]
    · simp only [hzero, if_false]
      exact Nat.mul_lt_mul_of_pos_right (by omega) (Nat.pow_pos (by decide))
  · -- the first fraction of the next exponent
    have hnext : f.span * exponent + fraction + 1 = f.span * (exponent + 1) + 0 := by
      rw [Nat.mul_succ]
      omega
    rw [hnext, units_eq hfraction, units_eq hspan]
    simp only [Nat.add_one_ne_zero, if_false, Nat.add_zero, Nat.add_sub_cancel]
    cases exponent with
    | zero =>
      simp only [if_true, Nat.pow_zero, Nat.mul_one]
      exact hfraction
    | succ exponent =>
      simp only [Nat.add_one_ne_zero, if_false, Nat.add_sub_cancel]
      have hpos : 0 < 2 ^ exponent := Nat.pow_pos (by decide)
      calc (f.span + fraction) * 2 ^ exponent
          < (f.span * 2) * 2 ^ exponent := Nat.mul_lt_mul_of_pos_right (by omega) hpos
        _ = f.span * 2 ^ (exponent + 1) := by rw [Nat.pow_succ, Nat.mul_assoc, Nat.mul_comm 2]

theorem units_strictMono : StrictMono f.units :=
  strictMono_nat_of_lt_succ units_lt_succ

theorem units_pos {index : Nat} (h : 0 < index) : 0 < f.units index :=
  Nat.lt_of_le_of_lt (Nat.zero_le _) (units_strictMono h)

theorem top_lt : f.top < 2 ^ (f.exponentBits + f.fractionBits) := by
  have hpos : 0 < 2 ^ f.exponentBits := Nat.pow_pos (by decide)
  have hspan := f.span_pos
  unfold top
  simp only [span, Nat.pow_eq] at hspan ⊢
  rw [Nat.pow_add]
  exact Nat.mul_lt_mul_of_pos_right (by omega) hspan

/-- Between the midpoints around a magnitude every number rounds to it. -/
theorem roundsBelow_units (i j : Nat) : f.roundsBelow (f.units i) 1 j = decide (i ≤ j) := by
  have hstep := f.units_lt_succ j
  unfold roundsBelow
  simp only [Nat.one_mul]
  by_cases hle : i ≤ j
  · have hmono : f.units i ≤ f.units j := units_strictMono.monotone hle
    have hlt : 2 * f.units i < f.units j + f.units (j + 1) := by omega
    simp [hle, hlt]
  · have hj : f.units j < f.units i := units_strictMono (Nat.lt_of_not_le hle)
    have hsucc : f.units (j + 1) ≤ f.units i := units_strictMono.monotone (by omega)
    have hlt : ¬ 2 * f.units i < f.units j + f.units (j + 1) := by omega
    have hne : 2 * f.units i ≠ f.units j + f.units (j + 1) := by omega
    simp [hle, hlt, hne]

/-- A magnitude is the one nearest to itself. -/
theorem nearest_units {i : Nat} (hi : i < f.top) : f.nearest (f.units i) 1 = i := by
  have hp : (fun index => decide (f.top ≤ index) || f.roundsBelow (f.units i) 1 index) =
      fun index => decide (i ≤ index) := by
    funext index
    rw [roundsBelow_units]
    by_cases htop : f.top ≤ index
    · have hle : i ≤ index := by omega
      simp [htop, hle]
    · simp [htop]
  unfold nearest
  rw [hp]
  exact bisect_eq (Nat.zero_le _) (by have := f.top_lt; omega)

theorem nearest_congr {num den num' den' : Nat} (hden : 0 < den) (hden' : 0 < den')
    (h : num * den' = num' * den) : f.nearest num den = f.nearest num' den' := by
  have hrounds : f.roundsBelow num den = f.roundsBelow num' den' := by
    funext index
    unfold roundsBelow
    generalize f.units index + f.units (index + 1) = middle
    have hleft : 2 * num * den' = 2 * num' * den := by rw [Nat.mul_assoc, h, Nat.mul_assoc]
    have hright : den * middle * den' = den' * middle * den := by
      rw [Nat.mul_right_comm, Nat.mul_comm den, Nat.mul_right_comm]
    have hlt : 2 * num < den * middle ↔ 2 * num' < den' * middle := by
      rw [← Nat.mul_lt_mul_right hden', hleft, hright, Nat.mul_lt_mul_right hden]
    have heq : 2 * num = den * middle ↔ 2 * num' = den' * middle := by
      rw [← Nat.mul_left_inj (Nat.ne_of_gt hden'), hleft, hright,
        Nat.mul_left_inj (Nat.ne_of_gt hden)]
    simp only [hlt, beq_eq_decide, heq]
  unfold nearest
  rw [hrounds]

end FloatFormat

end InterfaceCatalog
