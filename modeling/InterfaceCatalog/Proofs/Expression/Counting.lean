import InterfaceCatalog.Proofs.Expression.Arithmetic
import InterfaceCatalog.Proofs.Expression.Parsing

namespace InterfaceCatalog

open Catalog (restrict)

theorem Integer.wrap_of_holds {k : IntegerKind} {n : Int} (h : k.Holds n) :
    Integer.wrap k n = ⟨k, n, h⟩ := by
  have hoffset : (n - k.least) % k.size = n - k.least := by
    have hhigh := h.2
    unfold IntegerKind.greatest at hhigh
    exact Int.emod_eq_of_lt (Int.sub_nonneg_of_le h.1) (by omega)
  simp only [Integer.wrap, hoffset, Integer.mk.injEq, true_and]
  omega

theorem IntegerKind.int_holds {k : Nat} (hk : k < 2 ^ 31) : IntegerKind.int.Holds k := by
  have hleast : IntegerKind.int.least = -2147483648 := by decide
  have hgreatest : IntegerKind.int.greatest = 2147483647 := by decide
  unfold Holds
  omega

theorem IntegerKind.promote_int (k : IntegerKind) : k.promote .int = k := by
  simp [promote, rank]

/-- The sum of a value and a number. -/
def Value.plus (k : Nat) (v : Value) : Except EvaluationError Value :=
  BinaryOperator.add.apply v (.integer (.wrap .int k))

namespace Value

variable {k : Nat}

theorem plus_integer (hk : k < 2 ^ 31) (n : Integer) :
    plus k (.integer n) = integerValue n.kind (n.val + k) := by
  change BinaryOperator.add.arithmetic (.integer n) (.integer (.wrap .int k)) = _
  rw [BinaryOperator.arithmetic_add, Integer.wrap_of_holds (IntegerKind.int_holds hk)]
  exact congrArg (integerValue · _) (IntegerKind.promote_int n.kind)

section

variable {mask : Mask} (hsigned : mask.intersects .signedInteger)
    (hunsigned : mask.intersects .unsignedInteger)

include hsigned hunsigned

theorem intersects_integer (n : Integer) : mask.intersects (Value.integer n).kind.mask := by
  unfold kind Kind.mask
  dsimp only
  split
  · exact hsigned
  · exact hunsigned

theorem integerValue_restrict (k : IntegerKind) (r : Int) :
    integerValue k r >>= restrict mask = integerValue k r := by
  unfold integerValue
  cases Integer.of? k r with
  | none => rfl
  | some n => exact if_pos (intersects_integer hsigned hunsigned n)

end

/-- A sum is a number. -/
theorem plus_restrict (k : Nat) (v : Value) : plus k v >>= restrict .number = plus k v := by
  cases v with
  | integer n =>
    change BinaryOperator.add.arithmetic (.integer n) (.integer (.wrap .int k)) >>= _ =
      BinaryOperator.add.arithmetic (.integer n) (.integer (.wrap .int k))
    rw [BinaryOperator.arithmetic_add, integerValue_restrict (by decide) (by decide)]
  | float x => exact if_pos (by decide : Mask.number.intersects Mask.float)
  | double x => exact if_pos (by decide : Mask.number.intersects Mask.float)
  | string | char | bool | null => rfl

end Value

/-- Results that differ at most in the digits of a floating value. -/
inductive Alike : Except EvaluationError Value → Except EvaluationError Value → Prop
  | refl (r : Except EvaluationError Value) : Alike r r
  | float (x y : Single) : Alike (.ok (.float x)) (.ok (.float y))
  | double (x y : Double) : Alike (.ok (.double x)) (.ok (.double y))

namespace Alike

variable {q r s : Except EvaluationError Value}

theorem trans (h : Alike q r) (h' : Alike r s) : Alike q s := by
  cases h with
  | refl => exact h'
  | float x y =>
    cases h' with
    | refl => exact .float x y
    | float _ z => exact .float x z
  | double x y =>
    cases h' with
    | refl => exact .double x y
    | double _ z => exact .double x z

theorem bind_plus (h : Alike r s) (k : Nat) : Alike (r >>= Value.plus k) (s >>= Value.plus k) := by
  cases h with
  | refl => exact .refl _
  | float x y => exact .float _ _
  | double x y => exact .double _ _

/-- What is asked for an integer does not depend on the digits of a floating value. -/
theorem bind_restrict (h : Alike r s) : r >>= restrict .integer = s >>= restrict .integer := by
  have hout : ¬ Mask.integer.intersects Mask.float := by decide
  cases h with
  | refl => rfl
  | float x y => exact (if_neg hout).trans (if_neg hout).symm
  | double x y => exact (if_neg hout).trans (if_neg hout).symm

end Alike

/-- Beyond the greatest integer of a kind no later one is in it. -/
theorem IntegerKind.not_holds_succ (n : Integer) {k : Nat} (h : ¬ n.kind.Holds (n.val + k)) :
    ¬ n.kind.Holds (n.val + (k + 1 : Nat)) := by
  have hn := n.holds
  unfold Holds at hn h ⊢
  omega

theorem Value.plus_succ {k : Nat} (hk : k + 1 < 2 ^ 31) (v : Value) :
    Alike (v.plus (k + 1)) (v.plus k >>= Value.plus 1) := by
  cases v with
  | integer n =>
    rw [plus_integer hk, plus_integer (Nat.lt_of_succ_lt hk)]
    by_cases hholds : n.kind.Holds (n.val + k)
    · have hnext : plus 1 (.integer ⟨n.kind, n.val + k, hholds⟩) =
          integerValue n.kind (n.val + (k + 1 : Nat)) := by
        rw [plus_integer (by decide)]
        exact congrArg (integerValue n.kind) (by push_cast; omega)
      rw [integerValue_of_holds hholds, Except.bind_of_eq_ok rfl, hnext]
      exact .refl _
    · rw [(IntegerKind.yields_integerValue _ _).2 hholds,
        (IntegerKind.yields_integerValue _ _).2 (IntegerKind.not_holds_succ n hholds)]
      exact .refl _
  | float x => exact .float _ _
  | double x => exact .double _ _
  | string _ | char _ | bool _ | null =>
    exact .refl (.error (.mismatchedOperands _ (.integer .int)))

theorem Value.plus_zero {v : Value} (hv : Mask.number.intersects v.kind.mask) :
    Alike (v.plus 0) (.ok v) := by
  cases v with
  | integer n =>
    rw [plus_integer (by decide), integerValue_of_holds (by simpa using n.holds)]
    have hsame : (⟨n.kind, n.val + (0 : Nat), by simpa using n.holds⟩ : Integer) = n := by
      cases n
      simp
    rw [hsame]
    exact .refl _
  | float x => exact .float _ _
  | double x => exact .double _ _
  | string _ => exact absurd hv (by decide : ¬ Mask.number.intersects Mask.string)
  | char _ => exact absurd hv (by decide : ¬ Mask.number.intersects Mask.char)
  | bool _ => exact absurd hv (by decide : ¬ Mask.number.intersects Mask.bool)
  | null => exact absurd hv (by decide : ¬ Mask.number.intersects Mask.null)

end InterfaceCatalog
