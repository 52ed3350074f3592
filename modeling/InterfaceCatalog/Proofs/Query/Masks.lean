import InterfaceCatalog.Proofs.Expression.Kinds
import InterfaceCatalog.Proofs.Query.Trees

namespace InterfaceCatalog

theorem Value.intersects_all (v : Value) : Mask.all.intersects v.kind.mask := by
  cases v with
  | integer n => exact BinaryOperator.intersects_all (.inl trivial)
  | float | double => exact BinaryOperator.intersects_all (.inl trivial)
  | string | char | bool | null => exact BinaryOperator.intersects_all (.inr (by simp [Value.kind]))

namespace Catalog

theorem restrict_all (v : Value) : restrict .all v = .ok v :=
  if_pos v.intersects_all

theorem bind_restrict_all (r : Except EvaluationError Value) : r >>= restrict .all = r := by
  cases r with
  | error e => rfl
  | ok v => exact restrict_all v

/-- What a mask lets through it lets through again, and what it refuses stays refused. -/
theorem bind_restrict_twice (r : Except EvaluationError Value) (mask : Mask) :
    r >>= restrict mask >>= restrict mask = r >>= restrict mask := by
  cases r with
  | error e => rfl
  | ok v =>
    change restrict mask v >>= restrict mask = restrict mask v
    cases hv : restrict mask v with
    | error e => rfl
    | ok w =>
      obtain ⟨hmask, rfl⟩ := restrict_eq_ok.mp hv
      exact restrict_eq_ok.mpr ⟨hmask, rfl⟩

/-- The mask is a filter behind the evaluation that lets every value through. -/
theorem evaluateWithin_eq_bind (c : Catalog) (limit : Nat) (id : Id .expressions) (mask : Mask) :
    c.evaluateWithin limit id mask = c.evaluateWithin limit id .all >>= restrict mask := by
  induction limit generalizing id mask with
  | zero => rfl
  | succ limit ih =>
    cases hget : c.get? id with
    | none => simp only [evaluateWithin_missing hget]; rfl
    | some r =>
      rw [evaluateWithin_succ limit hget, evaluateWithin_succ limit hget, bind_restrict_all]
      cases r with
      | unary | binary => rfl
      | literal l =>
        cases l with
        | value v => rfl
        | name n =>
          simp only [nodeValue]
          cases c.definition n with
          | error e => rfl
          | ok target =>
            change c.evaluateWithin limit target mask >>= restrict mask =
              c.evaluateWithin limit target .all >>= restrict mask
            rw [ih target mask, bind_restrict_twice]

/-- The mask neither changes a value nor hides a failure: it only refuses the values outside of
it. -/
theorem evaluate_filtered (c : Catalog) (id : Id .expressions) (mask : Mask) :
    c.evaluate id mask =
      match c.evaluate id .all with
      | .ok v => if mask.intersects v.kind.mask then .ok v else .error (.maskMismatch mask v.kind)
      | .error e => .error e := by
  have h := c.evaluateWithin_eq_bind maximumDepth id mask
  unfold evaluate
  rw [h]
  cases c.evaluateWithin maximumDepth id .all <;> rfl

end Catalog

end InterfaceCatalog
