import InterfaceCatalog.Number.Decimal
import InterfaceCatalog.Proofs.Number.Binary
import InterfaceCatalog.Proofs.Number.Digits

namespace InterfaceCatalog

/-- The numbers of a format keep to the powers of ten between which decimals are expanded. -/
structure FloatFormat.InReach (f : FloatFormat) : Prop where
  low : 10 ^ (f.scale - Decimal.reach) ≤ 5 ^ f.scale
  high : f.units f.top * 5 ^ f.scale ≤ 10 ^ (f.scale + Decimal.reach)

theorem FloatFormat.single_inReach : FloatFormat.single.InReach :=
  ⟨by decide +kernel, by decide +kernel⟩

theorem FloatFormat.double_inReach : FloatFormat.double.InReach :=
  ⟨by decide +kernel, by decide +kernel⟩

namespace Decimal

variable {f : FloatFormat}

theorem nearest_zero (e : Int) : nearest f ⟨0, e⟩ = 0 := by
  simp [nearest]

/-- A zero at the end of the digits makes up for a smaller exponent. -/
theorem nearest_shift (n k : Nat) (e : Int) : nearest f ⟨n * 10 ^ k, e - k⟩ = nearest f ⟨n, e⟩ := by
  have hten : ∀ k, 0 < 10 ^ k := fun k => Nat.pow_pos (by decide)
  by_cases hzero : n = 0
  · rw [hzero, Nat.zero_mul, nearest_zero, nearest_zero]
  · have hpos : 0 < n := Nat.pos_of_ne_zero hzero
    have hne : n * 10 ^ k ≠ 0 := Nat.mul_ne_zero hzero (Nat.ne_of_gt (hten k))
    have hpower : e - k + (Nat.toDigits 10 (n * 10 ^ k)).length =
        e + (Nat.toDigits 10 n).length := by
      rw [length_toDigits_mul_pow hpos]
      omega
    have hround : f.nearest (n * 10 ^ k * 10 ^ (e - k).toNat * f.one) (10 ^ (-(e - k)).toNat) =
        f.nearest (n * 10 ^ e.toNat * f.one) (10 ^ (-e).toNat) := by
      refine FloatFormat.nearest_congr (hten _) (hten _) ?_
      have hexponent : k + (e - k).toNat + (-e).toNat = e.toNat + (-(e - k)).toNat := by omega
      calc n * 10 ^ k * 10 ^ (e - k).toNat * f.one * 10 ^ (-e).toNat
          = n * f.one * 10 ^ (k + (e - k).toNat + (-e).toNat) := by
            rw [Nat.pow_add, Nat.pow_add]
            ac_rfl
        _ = n * 10 ^ e.toNat * f.one * 10 ^ (-(e - k)).toNat := by
            rw [hexponent, Nat.pow_add]
            ac_rfl
    simp only [nearest, hpower, hzero, hne, false_or, Nat.pow_eq, hround]

theorem nearest_exact {i : Nat} (hf : f.InReach) (hi : i < f.top) (hpos : 0 < f.units i) :
    nearest f ⟨f.units i * 5 ^ f.scale, -f.scale⟩ = i := by
  have hfive : 0 < 5 ^ f.scale := Nat.pow_pos (by decide)
  have hne : f.units i * 5 ^ f.scale ≠ 0 := Nat.mul_ne_zero (Nat.ne_of_gt hpos) (Nat.ne_of_gt hfive)
  have hlow : ¬ -(f.scale : Int) + (Nat.toDigits 10 (f.units i * 5 ^ f.scale)).length <
      -(reach : Int) := by
    intro hlt
    have hlength : (Nat.toDigits 10 (f.units i * 5 ^ f.scale)).length ≤ f.scale - reach := by omega
    have hlt := (Nat.length_toDigits_le_iff (by decide) (by omega)).mp hlength
    have hle : 5 ^ f.scale ≤ f.units i * 5 ^ f.scale := Nat.le_mul_of_pos_left _ hpos
    have := hf.low
    omega
  have hhigh : ¬ (reach : Int) <
      -(f.scale : Int) + (Nat.toDigits 10 (f.units i * 5 ^ f.scale)).length := by
    have hlt : f.units i * 5 ^ f.scale < f.units f.top * 5 ^ f.scale :=
      Nat.mul_lt_mul_of_pos_right (FloatFormat.units_strictMono hi) hfive
    have hreach : 0 < f.scale + reach := Nat.add_pos_right _ (by decide)
    have hlength := (Nat.length_toDigits_le_iff (b := 10) (by decide) hreach).mpr
      (Nat.lt_of_lt_of_le hlt hf.high)
    omega
  have hround : f.nearest (f.units i * 5 ^ f.scale * 10 ^ (-(f.scale : Int)).toNat * f.one)
      (10 ^ (- -(f.scale : Int)).toNat) = i := by
    refine (FloatFormat.nearest_congr (Nat.pow_pos (by decide)) (by decide) ?_).trans
      (FloatFormat.nearest_units hi)
    have hneg : (-(f.scale : Int)).toNat = 0 := by omega
    have hscale : (- -(f.scale : Int)).toNat = f.scale := by omega
    have hone : f.one = 2 ^ f.scale := rfl
    have hten : 10 ^ f.scale = 5 ^ f.scale * 2 ^ f.scale := Nat.mul_pow 5 2 f.scale
    rw [hneg, hscale, hone, hten, Nat.pow_zero, Nat.mul_one, Nat.mul_one, Nat.mul_assoc]
  simp only [nearest, hne, hlow, hhigh, or_false, if_false, Nat.pow_eq, hround]

theorem onGrid?_nearest {index num den : Nat} {exponent : Int} {d : Decimal}
    (h : onGrid? f index num den exponent = some d) : d.nearest f = index := by
  unfold onGrid? at h
  simp only at h
  split at h
  next hbelow =>
    cases h
    simp only [Bool.and_eq_true, beq_iff_eq] at hbelow
    exact hbelow.1
  next =>
    split at h
    next habove =>
      cases h
      exact beq_iff_eq.mp habove
    next => cases h

theorem search_nearest {index num den : Nat} {exact : Decimal} (h : exact.nearest f = index)
    (fuel : Nat) (exponent : Int) :
    (search f index num den exact fuel exponent).nearest f = index := by
  induction fuel generalizing exponent with
  | zero => exact h
  | succ fuel ih =>
    unfold search
    cases hgrid : onGrid? f index num den exponent with
    | none => exact ih (exponent - 1)
    | some d => exact onGrid?_nearest hgrid

/-- The shortest decimal of a number rounds to it. -/
theorem nearest_shortest {i : Nat} (hf : f.InReach) (hi : i < f.top) :
    (shortest f i).nearest f = i := by
  unfold shortest
  simp only
  split
  next hzero =>
    rw [nearest_zero]
    by_contra hne
    have hpos := f.units_pos (Nat.pos_of_ne_zero fun h => hne h.symm)
    omega
  next hne =>
    have hexact := nearest_exact hf hi (Nat.pos_of_ne_zero hne)
    exact search_nearest hexact _ _

theorem toBinary_shortest {i : Fin f.top} (hf : f.InReach) {d : Decimal}
    (hd : d.nearest f = (shortest f i).nearest f) : d.toBinary f false = .finite false i := by
  have hi := hd.trans (nearest_shortest hf i.isLt)
  unfold toBinary
  simp only [hi, i.isLt, dif_pos]

end Decimal

end InterfaceCatalog
