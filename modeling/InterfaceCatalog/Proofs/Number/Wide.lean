import InterfaceCatalog.Number.Integer
import Mathlib.Data.Int.Bitwise

namespace InterfaceCatalog

/-- Beyond its width a word goes on with its sign. -/
theorem testBit_toInt {w : Nat} (x : BitVec w) (i : Nat) :
    x.toInt.testBit i = if i < w then x.getLsbD i else x.msb := by
  rw [BitVec.toInt_eq_msb_cond]
  cases hm : x.msb with
  | false =>
    have hbit : x.toNat.testBit i = x.getLsbD i := rfl
    simp only [Bool.false_eq_true, if_false, Int.testBit, hbit]
    split
    · rfl
    · next hi => exact BitVec.getLsbD_of_ge x i (by omega)
  | true =>
    have hneg : (x.toNat : Int) - (2 ^ w : Nat) = Int.negSucc (2 ^ w - (x.toNat + 1)) := by
      have hlt := x.isLt
      rw [Int.negSucc_eq]
      omega
    have hbit : x.toNat.testBit i = x.getLsbD i := rfl
    rw [if_pos rfl, hneg]
    simp only [Int.testBit, Nat.testBit_two_pow_sub_succ x.isLt, hbit]
    split <;> simp [*]

section

variable {w : Nat} (x y : BitVec w) (i : Nat)

theorem testBit_toInt_and :
    (x &&& y).toInt.testBit i = (x.toInt.testBit i && y.toInt.testBit i) := by
  simp only [testBit_toInt, BitVec.getLsbD_and, BitVec.msb_and]
  split <;> rfl

theorem testBit_toInt_or :
    (x ||| y).toInt.testBit i = (x.toInt.testBit i || y.toInt.testBit i) := by
  simp only [testBit_toInt, BitVec.getLsbD_or, BitVec.msb_or]
  split <;> rfl

theorem testBit_toInt_xor :
    (x ^^^ y).toInt.testBit i = (x.toInt.testBit i ^^ y.toInt.testBit i) := by
  simp only [testBit_toInt, BitVec.getLsbD_xor, BitVec.msb_xor]
  split <;> rfl

end

/-- A number is in the signed range of a width exactly if its bits are constant from the sign on. -/
theorem signed_range_iff {p : Nat} {n : Int} :
    (∃ s, ∀ i, p ≤ i → n.testBit i = s) ↔ -(2 ^ p : Nat) ≤ n ∧ n < (2 ^ p : Nat) := by
  have range (a : Nat) : (∃ s, ∀ i, p ≤ i → a.testBit i = s) ↔ a < 2 ^ p := by
    constructor
    · rintro ⟨s, hs⟩
      have hhigh : a.testBit (p + a) = false :=
        Nat.testBit_lt_two_pow
          (Nat.lt_of_lt_of_le Nat.lt_two_pow_self (Nat.pow_le_pow_right (by decide) (by omega)))
      have hfalse : s = false := (hs _ (by omega)).symm.trans hhigh
      exact Nat.lt_pow_two_of_testBit a fun i hi => (hs i hi).trans hfalse
    · intro ha
      refine ⟨false, fun i hi => Nat.testBit_lt_two_pow ?_⟩
      exact Nat.lt_of_lt_of_le ha (Nat.pow_le_pow_right (by decide) hi)
  cases n with
  | ofNat a =>
    change (∃ s, ∀ i, p ≤ i → a.testBit i = s) ↔ _
    rw [range a]
    simp only [Int.ofNat_eq_natCast]
    omega
  | negSucc a =>
    have hflip : (∃ s, ∀ i, p ≤ i → (Int.negSucc a).testBit i = s) ↔ ∃ s, ∀ i, p ≤ i →
        a.testBit i = s := by
      constructor
      · rintro ⟨s, hs⟩
        exact ⟨!s, fun i hi => by rw [← hs i hi]; simp [Int.testBit]⟩
      · rintro ⟨s, hs⟩
        exact ⟨!s, fun i hi => by rw [← hs i hi]; simp [Int.testBit]⟩
    rw [hflip, range a, Int.negSucc_eq]
    omega

/-- A number is in the unsigned range of a width exactly if it has no bit beyond it. -/
theorem unsigned_range_iff {w : Nat} {n : Int} :
    (∀ i, w ≤ i → n.testBit i = false) ↔ 0 ≤ n ∧ n < (2 ^ w : Nat) := by
  cases n with
  | ofNat a =>
    change (∀ i, w ≤ i → a.testBit i = false) ↔ _
    simp only [Int.ofNat_eq_natCast]
    constructor
    · intro h
      have := Nat.lt_pow_two_of_testBit a h
      omega
    · intro h i hi
      refine Nat.testBit_lt_two_pow (Nat.lt_of_lt_of_le (m := 2 ^ w) (by omega) ?_)
      exact Nat.pow_le_pow_right (by decide) hi
  | negSucc a =>
    constructor
    · intro h
      have hhigh : a.testBit (w + a) = false :=
        Nat.testBit_lt_two_pow
          (Nat.lt_of_lt_of_le Nat.lt_two_pow_self (Nat.pow_le_pow_right (by decide) (by omega)))
      have hset := h (w + a) (by omega)
      simp [Int.testBit, hhigh] at hset
    · intro h
      have := h.1
      omega

namespace IntegerKind

theorem holds_iff_testBit {k : IntegerKind} {n : Int} :
    k.Holds n ↔ if k.isSigned then ∃ s, ∀ i, k.width - 1 ≤ i → n.testBit i = s
      else ∀ i, k.width ≤ i → n.testBit i = false := by
  split
  · next hk =>
    rw [signed_range_iff]
    cases k <;> simp [Holds, greatest, least, size, width, isSigned] at hk ⊢ <;> omega
  · next hk =>
    rw [unsigned_range_iff]
    cases k <;> simp [Holds, greatest, least, size, width, isSigned] at hk ⊢ <;> omega

/-- Numbers that a kind holds stay in it when their bits are joined. -/
theorem holds_of_testBit {k : IntegerKind} {f : Bool → Bool → Bool} (hf : f false false = false)
    {a b r : Int} (ha : k.Holds a) (hb : k.Holds b)
    (hr : ∀ i, r.testBit i = f (a.testBit i) (b.testBit i)) : k.Holds r := by
  rw [holds_iff_testBit] at ha hb ⊢
  split
  · next hk =>
    rw [if_pos hk] at ha hb
    obtain ⟨s, hs⟩ := ha
    obtain ⟨t, ht⟩ := hb
    exact ⟨f s t, fun i hi => by rw [hr, hs i hi, ht i hi]⟩
  · next hk =>
    rw [if_neg hk] at ha hb
    exact fun i hi => by rw [hr, ha i hi, hb i hi, hf]

end IntegerKind

namespace Integer

theorem val_bounds (i : Integer) : -2 ^ 63 ≤ i.val ∧ i.val < 2 ^ 64 := by
  obtain ⟨k, n, low, high⟩ := i
  cases k <;> simp only [IntegerKind.greatest, IntegerKind.least, IntegerKind.size,
    IntegerKind.width, IntegerKind.isSigned] at low high <;> simp at low high ⊢ <;> omega

theorem toInt_wide (i : Integer) : i.wide.toInt = i.val := by
  obtain ⟨low, high⟩ := i.val_bounds
  exact BitVec.toInt_ofInt_eq_self (by decide) (by omega) (by omega)

section

variable (m n : Integer)

theorem not_saddOverflow : m.wide.saddOverflow n.wide = false := by
  obtain ⟨lowm, highm⟩ := m.val_bounds
  obtain ⟨lown, highn⟩ := n.val_bounds
  simp only [BitVec.saddOverflow, toInt_wide, Bool.or_eq_false_iff, decide_eq_false_iff_not]
  omega

theorem not_ssubOverflow : m.wide.ssubOverflow n.wide = false := by
  obtain ⟨lowm, highm⟩ := m.val_bounds
  obtain ⟨lown, highn⟩ := n.val_bounds
  simp only [BitVec.ssubOverflow, toInt_wide, Bool.or_eq_false_iff, decide_eq_false_iff_not]
  omega

/-- A product that a word does not hold is beyond every kind. -/
theorem not_holds_of_smulOverflow (h : m.wide.smulOverflow n.wide = true) (k : IntegerKind) :
    ¬ k.Holds (m.val * n.val) := by
  intro hk
  have hbounds : -2 ^ 63 ≤ m.val * n.val ∧ m.val * n.val < 2 ^ 64 := val_bounds ⟨k, _, hk⟩
  simp only [BitVec.smulOverflow, toInt_wide, Bool.or_eq_true, decide_eq_true_eq] at h
  omega

theorem wide_eq_zero_iff : n.wide = 0 ↔ n.val = 0 := by
  rw [← toInt_wide, ← BitVec.toInt_inj]
  simp

/-- The least word is no integer, so that no quotient and no remainder is beyond a word. -/
theorem not_sdivOverflow : m.wide.sdivOverflow n.wide = false := by
  obtain ⟨low, high⟩ := m.val_bounds
  have habs := Int.natAbs_ediv_le_natAbs m.val n.val
  simp only [BitVec.sdivOverflow, toInt_wide, Bool.or_eq_false_iff, decide_eq_false_iff_not]
  omega

theorem toInt_add : (m.wide + n.wide).toInt = m.val + n.val := by
  rw [BitVec.toInt_add_of_not_saddOverflow (by simp [not_saddOverflow]), toInt_wide, toInt_wide]

theorem toInt_sub : (m.wide - n.wide).toInt = m.val - n.val := by
  rw [BitVec.toInt_sub_of_not_ssubOverflow (by simp [not_ssubOverflow]), toInt_wide, toInt_wide]

theorem toInt_sdiv : (m.wide.sdiv n.wide).toInt = m.val.tdiv n.val := by
  have hne : m.wide ≠ BitVec.intMin 128 := by
    intro he
    have hval := m.toInt_wide
    have hlow := m.val_bounds.1
    rw [he, BitVec.toInt_intMin] at hval
    omega
  rw [BitVec.toInt_sdiv_of_ne_or_ne _ _ (.inl hne), toInt_wide, toInt_wide]

theorem toInt_srem : (m.wide.srem n.wide).toInt = m.val.tmod n.val := by
  rw [BitVec.toInt_srem, toInt_wide, toInt_wide]

theorem toInt_sshiftRight (s : Nat) : (m.wide.sshiftRight s).toInt = m.val.fdiv (2 ^ s : Nat) := by
  rw [BitVec.toInt_sshiftRight, toInt_wide, Int.shiftRight_eq_div_pow,
    Int.fdiv_eq_ediv_of_nonneg _ (Int.natCast_nonneg _)]

/-- Shifted by less than its width, an integer loses no bit. -/
theorem toInt_shiftLeft {s : Nat} (hs : s < m.kind.width) :
    (m.wide <<< s).toInt = m.val * (2 ^ s : Nat) := by
  obtain ⟨low, high⟩ := m.val_bounds
  have hwidth : m.kind.width ≤ 64 := by cases m.kind <;> decide
  have hpow : 2 ^ s ≤ 2 ^ 63 := Nat.pow_le_pow_right (by decide) (by omega)
  have hproduct : m.wide <<< s = BitVec.ofInt 128 (m.val * (2 ^ s : Nat)) := by
    have htwo : BitVec.twoPow 128 s = BitVec.ofInt 128 (2 ^ s : Nat) := by
      rw [BitVec.ofInt_natCast]
      exact BitVec.eq_of_toNat_eq (by simp)
    rw [BitVec.shiftLeft_eq_mul_twoPow, BitVec.ofInt_mul, htwo, wide]
  rw [hproduct]
  generalize ht : ((2 ^ s : Nat) : Int) = t
  have hnonneg : 0 ≤ t := ht ▸ Int.natCast_nonneg _
  have hlow := Int.mul_le_mul_of_nonneg_right low hnonneg
  have hhigh := Int.mul_le_mul_of_nonneg_right (Int.le_sub_one_of_lt high) hnonneg
  exact BitVec.toInt_ofInt_eq_self (by decide) (by omega) (by omega)

end

end Integer

end InterfaceCatalog
