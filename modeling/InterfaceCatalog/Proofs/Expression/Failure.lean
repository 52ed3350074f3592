import InterfaceCatalog.Expression.Operation

namespace InterfaceCatalog

/-- Errors about how expressions lead to each other: there are too many, or one of
them is not there. -/
def EvaluationError.IsOuter : EvaluationError → Prop
  | tooDeep | invalidHandle => True
  | _ => False

theorem EvaluationError.tooDeep_isOuter : EvaluationError.tooDeep.IsOuter := trivial

theorem EvaluationError.invalidHandle_isOuter : EvaluationError.invalidHandle.IsOuter := trivial

/-- The errors of a computation are not about how expressions lead to each other. -/
def FailsInside {α : Type} (r : Except EvaluationError α) : Prop :=
  ∀ e, r = .error e → ¬ e.IsOuter

section

variable {α β : Type}

theorem failsInside_ok (a : α) : FailsInside (.ok a) := by
  rintro e ⟨⟩

theorem failsInside_error {e : EvaluationError} (he : ¬ e.IsOuter) :
    FailsInside (.error e : Except EvaluationError α) := by
  rintro _ ⟨⟩
  exact he

theorem FailsInside.map {r : Except EvaluationError α} (h : FailsInside r) (f : α → β) :
    FailsInside (r.map f) := by
  cases r with
  | ok a => exact failsInside_ok (f a)
  | error e => exact failsInside_error (h e rfl)

theorem bind_eq_outer {x : Except EvaluationError α} {f : α → Except EvaluationError β}
    {e : EvaluationError} (hf : ∀ a, FailsInside (f a)) (he : e.IsOuter) :
    x >>= f = .error e ↔ x = .error e := by
  cases x with
  | error e' => exact ⟨fun h => by cases h; rfl, fun h => by cases h; rfl⟩
  | ok a => exact ⟨fun h => absurd he (hf a e h), fun h => by cases h⟩

end

theorem failsInside_integerValue (k : IntegerKind) (n : Int) : FailsInside (integerValue k n) := by
  unfold integerValue
  split
  next i _ => exact failsInside_ok _
  next => exact failsInside_error id

theorem UnaryOperator.failsInside (o : UnaryOperator) (v : Value) : FailsInside (o.apply v) := by
  unfold apply
  split
  case h_4 n =>
    split
    · exact failsInside_integerValue n.kind _
    · exact failsInside_error id
  all_goals first | exact failsInside_ok _ | exact failsInside_error id

namespace BinaryOperator

variable (o : BinaryOperator)

/-- Words are computed first, and a kind is to hold the result. -/
theorem failsInside_words (x y : Wide) (k : IntegerKind) :
    FailsInside (match onWords o x y with
      | .error e => .error e
      | .ok r => integerValue k r.toInt) := by
  have hwords : FailsInside (onWords o x y) := by
    fun_cases onWords o x y <;> first | exact failsInside_ok _ | exact failsInside_error id
  split
  next e he => exact failsInside_error (hwords e he)
  next r _ => exact failsInside_integerValue k r.toInt

theorem failsInside_arithmetic (v w : Value) : FailsInside (o.arithmetic v w) := by
  unfold arithmetic
  split
  next m n => exact o.failsInside_words m.wide n.wide _
  next =>
    split
    next => dsimp only; split <;> exact failsInside_ok _
    next => exact failsInside_error id

theorem failsInside_shift (m n : Integer) : FailsInside (o.shift m n) := by
  unfold shift
  split
  next => split <;> exact failsInside_integerValue m.kind _
  next => exact failsInside_error id

theorem failsInside_integral (v w : Value) : FailsInside (o.integral v w) := by
  unfold integral
  split
  next m n =>
    split
    next => exact o.failsInside_shift m n
    next => exact o.failsInside_words m.wide n.wide _
  next => exact failsInside_error id

theorem failsInside_valuesEqual (v w : Value) : FailsInside (valuesEqual v w) := by
  cases v with
  | string | char | bool | null =>
    cases w <;> first | exact failsInside_ok _ | exact failsInside_error id
  | _ =>
    unfold valuesEqual
    cases w.number? with
    | none => exact failsInside_error id
    | some b => exact failsInside_ok _

theorem failsInside_compareValues (v w : Value) : FailsInside (o.compareValues v w) := by
  unfold compareValues
  split
  next => exact failsInside_ok _
  next => exact failsInside_error id

theorem failsInside (v w : Value) : FailsInside (o.apply v w) := by
  cases o with
  | invalid => exact failsInside_error id
  | and | or => exact failsInside_ok _
  | equal | unequal => exact (failsInside_valuesEqual v w).map _
  | greater | less | greaterEqual | lessEqual => exact failsInside_compareValues _ v w
  | add | sub | mul | div => exact failsInside_arithmetic _ v w
  | mod | bitAnd | bitOr | bitXor | shiftLeft | shiftRight => exact failsInside_integral _ v w

end BinaryOperator

end InterfaceCatalog
