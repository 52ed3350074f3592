import InterfaceCatalog.Proofs.Number.Wide
import InterfaceCatalog.Query.Evaluation

namespace InterfaceCatalog

/-- A computation whose exact result is `r`: it gives `r` if the kind holds it, and an
overflow otherwise. -/
def IntegerKind.Yields (k : IntegerKind) (r : Int) (result : Except EvaluationError Value) : Prop :=
  (∀ h : k.Holds r, result = .ok (.integer ⟨k, r, h⟩)) ∧ (¬ k.Holds r → result = .error .overflow)

/-- An operation on the bits of infinite two's complement. Operands of one kind have a result of
this kind. -/
def IntegerKind.YieldsBits (k : IntegerKind) (f : Bool → Bool → Bool) (m n : Integer)
    (result : Except EvaluationError Value) : Prop :=
  ∃ r : Int, (∀ i, r.testBit i = f (m.val.testBit i) (n.val.testBit i)) ∧ k.Yields r result ∧
    (m.kind = n.kind → k.Holds r)

/-- What a binary operator gives for two integers. -/
def BinaryOperator.Gives (o : BinaryOperator) (m n : Integer)
    (result : Except EvaluationError Value) : Prop :=
  match o with
  | invalid => result = .error .invalidOperator
  | add => (m.kind.promote n.kind).Yields (m.val + n.val) result
  | sub => (m.kind.promote n.kind).Yields (m.val - n.val) result
  | mul => (m.kind.promote n.kind).Yields (m.val * n.val) result
  | div => (n.val = 0 → result = .error .divisionByZero) ∧
      (n.val ≠ 0 → (m.kind.promote n.kind).Yields (m.val.tdiv n.val) result)
  | mod => (n.val = 0 → result = .error .divisionByZero) ∧
      (n.val ≠ 0 → (m.kind.promote n.kind).Yields (m.val.tmod n.val) result)
  | bitAnd => (m.kind.promote n.kind).YieldsBits Bool.and m n result
  | bitOr => (m.kind.promote n.kind).YieldsBits Bool.or m n result
  | bitXor => (m.kind.promote n.kind).YieldsBits Bool.xor m n result
  | shiftLeft => (¬ (0 ≤ n.val ∧ n.val < m.kind.width) → result = .error .invalidShift) ∧
      (0 ≤ n.val ∧ n.val < m.kind.width →
        m.kind.Yields (m.val * (2 ^ n.val.toNat : Nat)) result)
  | shiftRight => (¬ (0 ≤ n.val ∧ n.val < m.kind.width) → result = .error .invalidShift) ∧
      (0 ≤ n.val ∧ n.val < m.kind.width →
        ∃ h, result = .ok (.integer ⟨m.kind, m.val.fdiv (2 ^ n.val.toNat : Nat), h⟩))
  | equal => result = .ok (.bool (m.val = n.val))
  | unequal => result = .ok (.bool (m.val ≠ n.val))
  | greater => result = .ok (.bool (n.val < m.val))
  | less => result = .ok (.bool (m.val < n.val))
  | greaterEqual => result = .ok (.bool (n.val ≤ m.val))
  | lessEqual => result = .ok (.bool (m.val ≤ n.val))
  | and => result = .ok (.bool (m.val ≠ 0 ∧ n.val ≠ 0))
  | or => result = .ok (.bool (m.val ≠ 0 ∨ n.val ≠ 0))

/-- What a unary operator gives for an integer. -/
def UnaryOperator.Gives (o : UnaryOperator) (n : Integer) (result : Except EvaluationError Value) :
    Prop :=
  match o with
  | invalid => result = .error .invalidOperator
  | minus => n.kind.isSigned ∧ n.kind.Yields (-n.val) result
  | plus => result = .ok (.integer n)
  | not => result = .ok (.bool (n.val = 0))
  | bitNot => ∃ r : Integer, r.kind = n.kind ∧
      (∀ i < n.kind.width, r.val.testBit i = !n.val.testBit i) ∧ result = .ok (.integer r)

theorem integerValue_of_holds {k : IntegerKind} {r : Int} (h : k.Holds r) :
    integerValue k r = .ok (.integer ⟨k, r, h⟩) := by
  have hof : Integer.of? k r = some ⟨k, r, h⟩ := Integer.of?_eq_some_iff.mpr ⟨rfl, rfl⟩
  rw [integerValue, hof]

theorem IntegerKind.yields_integerValue (k : IntegerKind) (r : Int) :
    k.Yields r (integerValue k r) :=
  ⟨integerValue_of_holds, fun h => by rw [integerValue, Integer.of?_eq_none_iff.mpr h]⟩

theorem IntegerKind.promote_self (k : IntegerKind) : k.promote k = k := by
  simp [promote]

/-- Halving stays within a kind. -/
theorem IntegerKind.holds_fdiv {k : IntegerKind} {r : Int} (h : k.Holds r) (s : Nat) :
    k.Holds (r.fdiv (2 ^ s : Nat)) := by
  have hpos : (0 : Int) < (2 ^ s : Nat) := Int.natCast_pos.mpr (Nat.two_pow_pos s)
  have hone : (1 : Int) ≤ (2 ^ s : Nat) := hpos
  have hleast : k.least ≤ 0 := by cases k <;> decide
  have hgreatest : 0 ≤ k.greatest := by cases k <;> decide
  rw [Int.fdiv_eq_ediv_of_nonneg _ (Int.le_of_lt hpos)]
  constructor
  · have hscale := Int.mul_le_mul_of_nonpos_left hleast hone
    have hlow := h.1
    exact (Int.le_ediv_iff_mul_le hpos).mpr (by omega)
  · have hscale := Int.mul_le_mul_of_nonneg_left hone hgreatest
    have hhigh := h.2
    exact Int.ediv_le_of_le_mul hpos (by omega)

namespace BinaryOperator

theorem yieldsBits_integerValue {f : Bool → Bool → Bool} (hf : f false false = false)
    {m n : Integer} {r : Int} (hr : ∀ i, r.testBit i = f (m.val.testBit i) (n.val.testBit i)) :
    (m.kind.promote n.kind).YieldsBits f m n (integerValue (m.kind.promote n.kind) r) := by
  refine ⟨r, hr, IntegerKind.yields_integerValue _ _, fun hk => ?_⟩
  rw [← hk, IntegerKind.promote_self]
  exact IntegerKind.holds_of_testBit hf m.holds (hk ▸ n.holds) hr

section

variable (m n : Integer)

theorem arithmetic_add : arithmetic add (.integer m) (.integer n) =
    integerValue (m.kind.promote n.kind) (m.val + n.val) := by
  rw [← Integer.toInt_add]
  simp only [arithmetic, onWords, Integer.not_saddOverflow, Bool.false_eq_true, if_false]

theorem arithmetic_sub : arithmetic sub (.integer m) (.integer n) =
    integerValue (m.kind.promote n.kind) (m.val - n.val) := by
  rw [← Integer.toInt_sub]
  simp only [arithmetic, onWords, Integer.not_ssubOverflow, Bool.false_eq_true, if_false]

/-- A product that is beyond a word is an overflow, as it is beyond every kind. -/
theorem arithmetic_mul : arithmetic mul (.integer m) (.integer n) =
    integerValue (m.kind.promote n.kind) (m.val * n.val) := by
  cases hover : m.wide.smulOverflow n.wide with
  | true =>
    have hout := Integer.not_holds_of_smulOverflow m n hover (m.kind.promote n.kind)
    rw [(IntegerKind.yields_integerValue _ _).2 hout]
    simp only [arithmetic, onWords, hover, if_true]
  | false =>
    rw [← m.toInt_wide, ← n.toInt_wide, ← BitVec.toInt_mul_of_not_smulOverflow (by simp [hover])]
    simp only [arithmetic, onWords, hover, Bool.false_eq_true, if_false]

theorem arithmetic_div : arithmetic div (.integer m) (.integer n) =
    if n.val = 0 then .error .divisionByZero
    else integerValue (m.kind.promote n.kind) (m.val.tdiv n.val) := by
  rw [← Integer.toInt_sdiv]
  by_cases hn : n.val = 0
  · simp only [arithmetic, onWords, n.wide_eq_zero_iff.mpr hn, hn, if_true]
  · simp only [arithmetic, onWords, mt n.wide_eq_zero_iff.mp hn, hn, Integer.not_sdivOverflow,
      Bool.false_eq_true, if_false]

theorem integral_mod : integral mod (.integer m) (.integer n) =
    if n.val = 0 then .error .divisionByZero
    else integerValue (m.kind.promote n.kind) (m.val.tmod n.val) := by
  rw [← Integer.toInt_srem]
  by_cases hn : n.val = 0
  · simp only [integral, onWords, n.wide_eq_zero_iff.mpr hn, hn, if_true, reduceCtorEq,
      or_self, if_false]
  · simp only [integral, onWords, mt n.wide_eq_zero_iff.mp hn, hn, reduceCtorEq, or_self, if_false]

theorem shift_shiftLeft (hn : 0 ≤ n.val ∧ n.val < m.kind.width) :
    shift shiftLeft m n = integerValue m.kind (m.val * (2 ^ n.val.toNat : Nat)) := by
  rw [shift, if_pos hn, if_pos rfl, Integer.toInt_shiftLeft m (by omega)]

theorem shift_shiftRight (hn : 0 ≤ n.val ∧ n.val < m.kind.width) :
    shift shiftRight m n = integerValue m.kind (m.val.fdiv (2 ^ n.val.toNat : Nat)) := by
  rw [shift, if_pos hn, if_neg (by decide), Integer.toInt_sshiftRight]

end

theorem arithmetic_gives {o : BinaryOperator} (ho : o ∈ [add, sub, mul, div]) (m n : Integer) :
    o.Gives m n (o.arithmetic (.integer m) (.integer n)) := by
  have yields := IntegerKind.yields_integerValue (m.kind.promote n.kind)
  simp only [List.mem_cons, List.not_mem_nil, or_false] at ho
  rcases ho with rfl | rfl | rfl | rfl
  · exact arithmetic_add m n ▸ yields _
  · exact arithmetic_sub m n ▸ yields _
  · exact arithmetic_mul m n ▸ yields _
  · rw [arithmetic_div]
    exact ⟨fun hn => if_pos hn, fun hn => if_neg hn ▸ yields _⟩

theorem shift_gives {o : BinaryOperator} (ho : o ∈ [shiftLeft, shiftRight]) (m n : Integer) :
    o.Gives m n (o.shift m n) := by
  have hout (hn : ¬ (0 ≤ n.val ∧ n.val < m.kind.width)) : o.shift m n = .error .invalidShift :=
    if_neg hn
  simp only [List.mem_cons, List.not_mem_nil, or_false] at ho
  rcases ho with rfl | rfl
  · exact ⟨hout, fun hn => shift_shiftLeft m n hn ▸ IntegerKind.yields_integerValue _ _⟩
  · refine ⟨hout, fun hn => ⟨IntegerKind.holds_fdiv m.holds _, ?_⟩⟩
    rw [shift_shiftRight m n hn, integerValue_of_holds]

theorem integral_gives {o : BinaryOperator}
    (ho : o ∈ [mod, bitAnd, bitOr, bitXor, shiftLeft, shiftRight]) (m n : Integer) :
    o.Gives m n (o.integral (.integer m) (.integer n)) := by
  have bits {f : Bool → Bool → Bool} (x : Wide) (hf : f false false = false)
      (hx : ∀ i, x.toInt.testBit i = f (m.wide.toInt.testBit i) (n.wide.toInt.testBit i)) :
      (m.kind.promote n.kind).YieldsBits f m n (integerValue (m.kind.promote n.kind) x.toInt) :=
    yieldsBits_integerValue hf (by simpa only [Integer.toInt_wide] using hx)
  simp only [List.mem_cons, List.not_mem_nil, or_false] at ho
  rcases ho with rfl | rfl | rfl | rfl | rfl | rfl
  · rw [integral_mod]
    exact ⟨fun hn => if_pos hn, fun hn => if_neg hn ▸ IntegerKind.yields_integerValue _ _⟩
  · exact bits (m.wide &&& n.wide) rfl (testBit_toInt_and _ _)
  · exact bits (m.wide ||| n.wide) rfl (testBit_toInt_or _ _)
  · exact bits (m.wide ^^^ n.wide) rfl (testBit_toInt_xor _ _)
  · exact shift_gives (by simp) m n
  · exact shift_gives (by simp) m n

theorem compareValues_gives {o : BinaryOperator} (ho : o ∈ [greater, less, greaterEqual, lessEqual])
    (m n : Integer) : o.Gives m n (o.compareValues (.integer m) (.integer n)) := by
  have hvalue : o.compareValues (.integer m) (.integer n) =
      .ok (.bool (o.accepts (Ord.compare m.val n.val))) := rfl
  rw [hvalue]
  simp only [List.mem_cons, List.not_mem_nil, or_false] at ho
  rcases ho with rfl | rfl | rfl | rfl
  all_goals
    simp only [Gives, accepts, Except.ok.injEq, Value.bool.injEq]
    rw [Bool.eq_iff_iff]
    simp [Int.compare_eq_gt, Int.compare_eq_lt, Int.isGE_compare, Int.isLE_compare]

theorem valuesEqual_integer (m n : Integer) :
    valuesEqual (.integer m) (.integer n) = .ok (m.val = n.val) := by
  have hvalue : valuesEqual (.integer m) (.integer n) =
      .ok (decide (some (Ord.compare m.val n.val) = some .eq)) := rfl
  rw [hvalue]
  simp only [Option.some.injEq, Int.compare_eq_eq]

/-- An operator gives what it says of two integers, whether or not it looks at the right one. -/
theorem apply_gives (o : BinaryOperator) (m n : Integer) :
    o.Gives m n (match o.shortcut? (Value.integer m).isTrue with
      | some b => .ok (.bool b)
      | none => o.apply (.integer m) (.integer n)) := by
  have htrue (i : Integer) : (Value.integer i).isTrue = !decide (i.val = 0) := rfl
  cases o with
  | invalid => rfl
  | add | sub | mul | div => exact arithmetic_gives (by simp) m n
  | mod | bitAnd | bitOr | bitXor | shiftLeft | shiftRight => exact integral_gives (by simp) m n
  | greater | less | greaterEqual | lessEqual => exact compareValues_gives (by simp) m n
  | equal => simp [Gives, shortcut?, apply, valuesEqual_integer, Except.map]
  | unequal => simp [Gives, shortcut?, apply, valuesEqual_integer, Except.map]
  | and | or => by_cases hm : m.val = 0 <;> simp [Gives, shortcut?, apply, htrue, hm]

end BinaryOperator

/-- The complement turns each bit of the kind. -/
theorem Integer.testBit_complement (n : Integer) {i : Nat} (hi : i < n.kind.width) :
    n.complement.val.testBit i = !n.val.testBit i := by
  obtain ⟨k, v, holds⟩ := n
  have hval : (Integer.complement ⟨k, v, holds⟩).val = k.least + k.greatest - v := rfl
  cases hk : k.isSigned with
  | true =>
    have hsum : k.least + k.greatest = -1 := by
      revert hk
      cases k <;> decide
    have hflip : k.least + k.greatest - v = v.lnot := by
      cases v <;> simp only [Int.lnot, hsum, Int.negSucc_eq, Int.ofNat_eq_natCast] <;> omega
    rw [hval, hflip, Int.testBit_lnot]
  | false =>
    have hleast : k.least = 0 := by simp [IntegerKind.least, hk]
    have hsize : k.greatest = (2 ^ k.width : Nat) - 1 := by
      simp [IntegerKind.greatest, hleast, IntegerKind.size]
    obtain ⟨a, rfl⟩ := Int.eq_ofNat_of_zero_le (hleast ▸ holds.1 : 0 ≤ v)
    have hbound : a < 2 ^ k.width := by
      have hhigh := holds.2
      omega
    have hflip : k.least + k.greatest - (a : Int) = (2 ^ k.width - (a + 1) : Nat) := by omega
    rw [hval, hflip]
    change (2 ^ k.width - (a + 1)).testBit i = !a.testBit i
    rw [Nat.testBit_two_pow_sub_succ hbound, decide_eq_true hi, Bool.true_and]

theorem UnaryOperator.apply_gives (o : UnaryOperator) (n : Integer)
    (ho : o = .minus → n.kind.isSigned = true) : o.Gives n (o.apply (.integer n)) := by
  cases o with
  | invalid | plus => rfl
  | not =>
    have htrue : (Value.integer n).isTrue = !decide (n.val = 0) := rfl
    simp [Gives, apply, htrue]
  | bitNot => exact ⟨n.complement, rfl, fun _ hi => n.testBit_complement hi, rfl⟩
  | minus =>
    have hsigned := ho rfl
    have hvalue : apply minus (.integer n) = integerValue n.kind (-n.val) := if_pos hsigned
    exact ⟨hsigned, hvalue ▸ IntegerKind.yields_integerValue _ _⟩

/-- No operation on the words of two integers loses anything of its exact result, and none traps;
only a product can be beyond a word, and then it is beyond every kind. -/
structure Integer.Exact (m n : Integer) : Prop where
  operand : m.wide.toInt = m.val
  add : m.wide.saddOverflow n.wide = false ∧ (m.wide + n.wide).toInt = m.val + n.val
  sub : m.wide.ssubOverflow n.wide = false ∧ (m.wide - n.wide).toInt = m.val - n.val
  mul : if m.wide.smulOverflow n.wide then ∀ k : IntegerKind, ¬ k.Holds (m.val * n.val)
    else (m.wide * n.wide).toInt = m.val * n.val
  div : m.wide.sdivOverflow n.wide = false ∧ (m.wide.sdiv n.wide).toInt = m.val.tdiv n.val
  mod : (m.wide.srem n.wide).toInt = m.val.tmod n.val
  shiftLeft : ∀ s < m.kind.width, (m.wide <<< s).toInt = m.val * (2 ^ s : Nat)
  shiftRight : ∀ s, (m.wide.sshiftRight s).toInt = m.val.fdiv (2 ^ s : Nat)

theorem Integer.exact (m n : Integer) : m.Exact n where
  operand := m.toInt_wide
  add := ⟨m.not_saddOverflow n, m.toInt_add n⟩
  sub := ⟨m.not_ssubOverflow n, m.toInt_sub n⟩
  mul := by
    split
    · next hover => exact not_holds_of_smulOverflow m n hover
    · next hover => rw [BitVec.toInt_mul_of_not_smulOverflow hover, m.toInt_wide, n.toInt_wide]
  div := ⟨m.not_sdivOverflow n, m.toInt_sdiv n⟩
  mod := m.toInt_srem n
  shiftLeft := fun _ hs => m.toInt_shiftLeft hs
  shiftRight := m.toInt_sshiftRight

namespace Catalog

variable (c : Catalog) (limit : Nat) (id : Id .expressions) (mask : Mask)

theorem evaluateWithin_intersects {limit : Nat} {id : Id .expressions} {mask : Mask} {v : Value}
    (h : c.evaluateWithin limit id mask = .ok v) : mask.intersects v.kind.mask := by
  cases limit with
  | zero => cases h
  | succ limit =>
    simp only [evaluateWithin] at h
    split at h
    · cases h
    · unfold restrict at h
      split at h
      · cases h
        assumption
      · cases h

theorem evaluateWithin_binary {o : BinaryOperator} {t u : Id .expressions} {m n : Integer}
    (hnode : c.get? id = some (.binary o t u))
    (ht : c.evaluateWithin limit t o.operandMask = .ok (.integer m))
    (hu : c.evaluateWithin limit u o.operandMask = .ok (.integer n)) :
    ∃ result, o.Gives m n result ∧ c.evaluateWithin (limit + 1) id mask =
      result.bind (restrict mask) := by
  refine ⟨_, o.apply_gives m n, ?_⟩
  by_cases ho : o = .invalid
  · subst ho
    simp [evaluateWithin, hnode, BinaryOperator.shortcut?, BinaryOperator.apply, Except.bind]
  · simp only [evaluateWithin, hnode, if_neg ho, ht, hu]
    cases o.shortcut? (Value.integer m).isTrue with
    | some b => rfl
    | none => cases o.apply (.integer m) (.integer n) <;> rfl

theorem evaluateWithin_unary {o : UnaryOperator} {t : Id .expressions} {n : Integer}
    (hnode : c.get? id = some (.unary o t))
    (ht : c.evaluateWithin limit t o.operandMask = .ok (.integer n)) :
    ∃ result, o.Gives n result ∧ c.evaluateWithin (limit + 1) id mask =
      result.bind (restrict mask) := by
  have hsigned : o = .minus → n.kind.isSigned = true := by
    rintro rfl
    have hmask := c.evaluateWithin_intersects ht
    cases hk : n.kind.isSigned with
    | true => rfl
    | false =>
      simp [Value.kind, Kind.mask, hk, UnaryOperator.operandMask] at hmask
      revert hmask
      decide
  refine ⟨_, o.apply_gives n hsigned, ?_⟩
  by_cases ho : o = .invalid
  · subst ho
    simp [evaluateWithin, hnode, UnaryOperator.apply, Except.bind]
  · simp only [evaluateWithin, hnode, if_neg ho, ht]
    cases o.apply (.integer n) <;> rfl

/-- An expression whose operands evaluate to integers has the value that its operator gives for them
as unbounded integers, and computing it loses nothing. -/
theorem evaluateWithin_integers :
    (∀ o t u m n, c.get? id = some (.binary o t u) →
      c.evaluateWithin limit t o.operandMask = .ok (.integer m) →
      c.evaluateWithin limit u o.operandMask = .ok (.integer n) →
      m.Exact n ∧ ∃ result, o.Gives m n result ∧
        c.evaluateWithin (limit + 1) id mask = result.bind (restrict mask)) ∧
    ∀ o t n, c.get? id = some (.unary o t) →
      c.evaluateWithin limit t o.operandMask = .ok (.integer n) →
      ∃ result, o.Gives n result ∧
        c.evaluateWithin (limit + 1) id mask = result.bind (restrict mask) :=
  ⟨fun _ _ _ m n hnode ht hu => ⟨m.exact n, c.evaluateWithin_binary limit id mask hnode ht hu⟩,
    fun _ _ _ hnode ht => c.evaluateWithin_unary limit id mask hnode ht⟩

/-- The square of the greatest integer, and the opposite of the least `int`. -/
private def extremes : Catalog :=
  let greatest : Literal := .value (.integer ⟨.ullong, 18446744073709551615, by decide⟩)
  let least : Literal := .value (.integer ⟨.int, -2147483648, by decide⟩)
  let nodes : List ExpressionRecord :=
    [.literal greatest, .binary .mul ⟨0, 0⟩ ⟨0, 0⟩, .literal least, .unary .minus ⟨2, 0⟩]
  nodes.foldl (fun c node => c.insert (t := .expressions) node) {}

theorem evaluateWithin_extremes :
    extremes.evaluateWithin 2 ⟨1, 0⟩ .all = .error .overflow ∧
      extremes.evaluateWithin 2 ⟨3, 0⟩ .all = .error .overflow := by
  have hintegers (id : Id .expressions) := extremes.evaluateWithin_integers 1 id .all
  constructor
  · obtain ⟨-, result, hgives, hvalue⟩ := (hintegers ⟨1, 0⟩).1 .mul ⟨0, 0⟩ ⟨0, 0⟩
      ⟨.ullong, 18446744073709551615, by decide⟩ ⟨.ullong, 18446744073709551615,
        by decide⟩ rfl rfl rfl
    have hresult : result = .error .overflow := hgives.2 (by decide)
    rw [hvalue, hresult]
    rfl
  · obtain ⟨result, ⟨-, hyields⟩, hvalue⟩ := (hintegers ⟨3, 0⟩).2 .minus ⟨2, 0⟩
      ⟨.int, -2147483648, by decide⟩ rfl rfl
    have hresult : result = .error .overflow := hyields.2 (by decide)
    rw [hvalue, hresult]
    rfl

end Catalog

end InterfaceCatalog
