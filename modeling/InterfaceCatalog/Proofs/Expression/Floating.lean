import InterfaceCatalog.Proofs.Expression.Kinds
import InterfaceCatalog.Proofs.Number.Range

namespace InterfaceCatalog

/-- Every value but the infinite ones and those that are no number. -/
def Value.IsFinite : Value → Prop
  | .float x => x.IsFinite
  | .double x => x.IsFinite
  | _ => True

theorem Value.isNumber_of_number? {v : Value} {a : Number} (h : v.number? = some a) :
    v.kind.IsNumber := by
  cases v with
  | integer | float | double => trivial
  | string | char | bool | null => cases h

theorem Value.isFinite_of_integerValue {k : IntegerKind} {n : Int} {r : Value}
    (h : integerValue k n = .ok r) : r.IsFinite := by
  unfold integerValue at h
  split at h
  next => cases h; trivial
  next => cases h

/-- Computing with an operand as a double loses nothing of its being finite. -/
theorem Value.toDouble_isFinite {v : Value} (hv : v.IsFinite) {a : Number}
    (ha : v.number? = some a) : a.toDouble.IsFinite := by
  cases v with
  | integer n =>
    cases ha
    exact (Binary.ofInt_isFinite_iff FloatFormat.double_isEven n.val).mpr
      (FloatFormat.holds_lt_limit n.holds)
  | float x =>
    cases ha
    have hlimit := Binary.amount_lt_limit FloatFormat.single_isEven hv
    exact (Binary.convert_isFinite_iff FloatFormat.double_isEven x).mpr
      ⟨hv, hlimit.trans FloatFormat.single_limit_lt⟩
  | double x =>
    cases ha
    exact hv
  | string | char | bool | null => cases ha

theorem UnaryOperator.apply_isFinite {o : UnaryOperator} {v r : Value} (hv : v.IsFinite)
    (h : o.apply v = .ok r) : r.IsFinite := by
  cases o with
  | invalid => cases h
  | plus => cases h; exact hv
  | not => cases h; trivial
  | minus =>
    cases v with
    | integer n =>
      simp only [apply] at h
      split at h
      next => exact Value.isFinite_of_integerValue h
      next => cases h
    | float x | double x => cases h; exact Binary.neg_isFinite hv
    | string | char | bool | null => cases h
  | bitNot =>
    cases v with
    | integer n => cases h; trivial
    | float | double | string | char | bool | null => cases h; exact hv

namespace BinaryOperator

/-- The exact result of an operation. -/
def exact (o : BinaryOperator) (p q : ℚ) : ℚ :=
  match o with
  | add => p + q
  | sub => p - q
  | mul => p * q
  | _ => p / q

/-- An operation on two numbers that are not both integers, which are taken as doubles. -/
structure Floats (o : BinaryOperator) (v w : Value) (x y : Double) : Prop where
  operator : o ∈ [add, sub, mul, div]
  left : v.number?.map Number.toDouble = some x
  right : w.number?.map Number.toDouble = some y
  floating : ¬ (v.kind.IsInteger ∧ w.kind.IsInteger)

/-- A quotient by zero, or a result beyond the range of its kind: beyond that of doubles, in which
it is computed, or beyond that of singles, if it is narrowed to one. -/
def Escapes (o : BinaryOperator) (v w : Value) : Prop :=
  ∃ x y, o.Floats v w x y ∧ (o = div ∧ y.amount = 0 ∨
    FloatFormat.double.limit ≤ |o.exact x.amount y.amount| ∨
    v.kind.higher w.kind = .float ∧ FloatFormat.single.limit ≤ |(o.floating x y).amount|)

variable {o : BinaryOperator} {v w : Value} {x y : Double}

theorem Floats.unique {x' y' : Double} (h : o.Floats v w x y) (h' : o.Floats v w x' y') :
    x = x' ∧ y = y' :=
  ⟨Option.some.inj (h.left.symm.trans h'.left), Option.some.inj (h.right.symm.trans h'.right)⟩

theorem floating_isFinite_iff (ho : o ∈ [add, sub, mul, div]) (hx : x.IsFinite) (hy : y.IsFinite) :
    (o.floating x y).IsFinite ↔
      ¬ (o = div ∧ y.amount = 0) ∧ |o.exact x.amount y.amount| < FloatFormat.double.limit := by
  have heven := FloatFormat.double_isEven
  fin_cases ho
  · exact (Binary.add_isFinite_iff heven hx hy).trans (by simp [exact])
  · exact (Binary.sub_isFinite_iff heven hx hy).trans (by simp [exact])
  · exact (Binary.mul_isFinite_iff heven hx hy).trans (by simp [exact])
  · exact (Binary.div_isFinite_iff heven hx hy).trans (by simp [exact])

theorem Floats.escapes_iff (h : o.Floats v w x y) : o.Escapes v w ↔ o = div ∧ y.amount = 0 ∨
    FloatFormat.double.limit ≤ |o.exact x.amount y.amount| ∨
    v.kind.higher w.kind = .float ∧ FloatFormat.single.limit ≤ |(o.floating x y).amount| := by
  constructor
  · rintro ⟨x', y', hfloats, hescapes⟩
    obtain ⟨rfl, rfl⟩ := h.unique hfloats
    exact hescapes
  · exact fun hescapes => ⟨x, y, h, hescapes⟩

theorem Floats.apply_eq (h : o.Floats v w x y) : o.apply v w =
    if v.kind = .double ∨ w.kind = .double then .ok (.double (o.floating x y))
    else .ok (.float (o.floating x y).convert) := by
  obtain ⟨a, ha, rfl⟩ := Option.map_eq_some_iff.mp h.left
  obtain ⟨b, hb, rfl⟩ := Option.map_eq_some_iff.mp h.right
  have happly : o.apply v w = o.arithmetic v w := by
    have ho := h.operator
    fin_cases ho <;> rfl
  rw [happly]
  unfold arithmetic
  split
  next m n => exact absurd ⟨trivial, trivial⟩ h.floating
  next => simp only [ha, hb]

/-- The operation never fails, and its result is finite unless it escapes. -/
theorem Floats.apply (h : o.Floats v w x y) (hv : v.IsFinite) (hw : w.IsFinite) :
    ∃ r, o.apply v w = .ok r ∧ r.kind = v.kind.higher w.kind ∧ (r.IsFinite ↔ ¬ o.Escapes v w) := by
  obtain ⟨a, ha, hx⟩ := Option.map_eq_some_iff.mp h.left
  obtain ⟨b, hb, hy⟩ := Option.map_eq_some_iff.mp h.right
  have hfinite := floating_isFinite_iff h.operator (hx ▸ v.toDouble_isFinite hv ha)
    (hy ▸ w.toDouble_isFinite hw hb)
  have hkind :=
    Kind.higher_floating (Value.isNumber_of_number? ha) (Value.isNumber_of_number? hb) h.floating
  rw [h.apply_eq, h.escapes_iff, hkind]
  split
  next hdouble =>
    refine ⟨_, rfl, rfl, hfinite.trans ?_⟩
    simp
  next hsingle =>
    refine ⟨_, rfl, rfl, (Binary.convert_isFinite_iff FloatFormat.single_isEven _).trans ?_⟩
    rw [hfinite]
    simp only [true_and, not_or, not_le, and_assoc]

theorem words_isFinite {words : Except EvaluationError Wide} {k : IntegerKind} {r : Value}
    (h : (match words with
      | .error e => Except.error e
      | .ok z => integerValue k z.toInt) = .ok r) : r.IsFinite := by
  split at h
  next => cases h
  next => exact Value.isFinite_of_integerValue h

theorem compareValues_isFinite {r : Value} (h : o.compareValues v w = .ok r) : r.IsFinite := by
  unfold compareValues at h
  split at h
  next => cases h; trivial
  next => cases h

theorem integral_isFinite {r : Value} (h : o.integral v w = .ok r) : r.IsFinite := by
  unfold integral at h
  split at h
  next m n =>
    split at h
    next =>
      unfold shift at h
      split at h
      next => split at h <;> exact Value.isFinite_of_integerValue h
      next => cases h
    next => exact words_isFinite h
  next => cases h

theorem arithmetic_cases {r : Value} (ho : o ∈ [add, sub, mul, div])
    (h : o.arithmetic v w = .ok r) : r.IsFinite ∨ ∃ x y, o.Floats v w x y := by
  unfold arithmetic at h
  split at h
  next => exact .inl (words_isFinite h)
  next hkinds =>
    split at h
    next a b ha hb =>
      refine .inr ⟨_, _, ho, by rw [ha]; rfl, by rw [hb]; rfl, fun ⟨hv, hw⟩ => ?_⟩
      obtain ⟨m, hm⟩ := Value.exists_integer hv
      obtain ⟨n, hn⟩ := Value.exists_integer hw
      exact hkinds m n hm hn
    next => cases h

/-- From finite operands an operator gives a finite value, unless it escapes. -/
theorem apply_isFinite {r : Value} (hv : v.IsFinite) (hw : w.IsFinite) (h : o.apply v w = .ok r) :
    r.IsFinite ∨ o.Escapes v w := by
  have truth : ∀ {result : Except EvaluationError Bool} {f : Bool → Bool},
      (result.map fun b => Value.bool (f b)) = .ok r → r.IsFinite := by
    rintro (e | b) f hr
    · cases hr
    · cases hr; trivial
  cases o with
  | invalid => cases h
  | and | or => cases h; exact .inl trivial
  | equal => exact .inl (truth (f := id) h)
  | unequal => exact .inl (truth h)
  | greater | less | greaterEqual | lessEqual => exact .inl (compareValues_isFinite h)
  | mod | bitAnd | bitOr | bitXor | shiftLeft | shiftRight => exact .inl (integral_isFinite h)
  | add | sub | mul | div =>
    obtain hr | ⟨x, y, hfloats⟩ := arithmetic_cases (by simp) h
    · exact .inl hr
    · obtain ⟨r', hr', -, hfinite⟩ := hfloats.apply hv hw
      cases h.symm.trans hr'
      exact or_iff_not_imp_right.mpr hfinite.mpr

end BinaryOperator

end InterfaceCatalog
