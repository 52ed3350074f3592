import InterfaceCatalog.Expression.Operation
import Mathlib.Tactic.FinCases

namespace InterfaceCatalog

namespace Kind

def IsInteger : Kind → Prop
  | integer _ => True
  | _ => False

def IsNumber : Kind → Prop
  | integer _ | float | double => True
  | _ => False

/-- Numbers that a sign can be put before. -/
def IsSigned : Kind → Prop
  | integer k => k.isSigned
  | float | double => True
  | _ => False

/-- Kinds of what is true or false. -/
def IsTruth : Kind → Prop
  | integer _ | float | double | bool | null => True
  | _ => False

/-- The place of a kind among those of numbers. -/
def rank : Kind → Nat
  | integer k => k.rank
  | float => 6
  | _ => 7

def higher (k l : Kind) : Kind :=
  if l.rank ≤ k.rank then k else l

/-- A value of the kind, or one of the errors that kinds do not exclude. -/
def Safe (k : Kind) : Except EvaluationError Value → Prop
  | .ok v => v.kind = k
  | .error e => e ∈ [.divisionByZero, .overflow, .invalidShift, .tooDeep]

theorem Safe.bind {k l : Kind} {r : Except EvaluationError Value}
    {f : Value → Except EvaluationError Value} (h : k.Safe r)
    (hf : ∀ v, v.kind = k → l.Safe (f v)) : l.Safe (r >>= f) := by
  cases r with
  | error e => exact h
  | ok v => exact hf v h

theorem higher_of_le {k l : Kind} (h : l.rank ≤ k.rank) : k.higher l = k :=
  if_pos h

theorem higher_of_lt {k l : Kind} (h : k.rank < l.rank) : k.higher l = l :=
  if_neg (Nat.not_le_of_lt h)

theorem higher_integer (k l : IntegerKind) :
    higher (integer k) (integer l) = integer (k.promote l) := by
  unfold IntegerKind.promote
  split
  next h => exact higher_of_le h
  next h => exact higher_of_lt (Nat.lt_of_not_le h)

theorem rank_integer (k : IntegerKind) : (integer k).rank < float.rank := by
  cases k <;> decide

/-- With a number that is no integer, the result is none, either. -/
theorem higher_floating {k l : Kind} (hk : k.IsNumber) (hl : l.IsNumber)
    (h : ¬ (k.IsInteger ∧ l.IsInteger)) :
    k.higher l = if k = double ∨ l = double then double else float := by
  cases k with
  | integer i =>
    have hi := rank_integer i
    cases l with
    | integer j => exact absurd ⟨trivial, trivial⟩ h
    | float => rw [higher_of_lt hi]; simp
    | double => rw [higher_of_lt (Nat.lt_trans hi (by decide))]; simp
    | _ => exact hl.elim
  | float =>
    cases l with
    | integer j => rw [higher_of_le (Nat.le_of_lt (rank_integer j))]; simp
    | float => decide
    | double => decide
    | _ => exact hl.elim
  | double =>
    cases l with
    | integer j =>
      rw [higher_of_le (Nat.le_of_lt (Nat.lt_trans (rank_integer j) (by decide)))]; simp
    | float => decide
    | double => decide
    | _ => exact hl.elim
  | _ => exact hk.elim

theorem IsInteger.intersects {k : Kind} (h : k.IsInteger) : Mask.integer.intersects k.mask := by
  cases k with
  | integer i => cases i <;> decide
  | _ => exact h.elim

theorem IsNumber.intersects {k : Kind} (h : k.IsNumber) : Mask.number.intersects k.mask := by
  cases k with
  | integer i => cases i <;> decide
  | float | double => decide
  | _ => exact h.elim

theorem IsSigned.intersects {k : Kind} (h : k.IsSigned) : Mask.signed.intersects k.mask := by
  cases k with
  | integer i => cases i <;> first | decide | cases h
  | float | double => decide
  | _ => exact h.elim

theorem IsTruth.intersects {k : Kind} (h : k.IsTruth) : Mask.truth.intersects k.mask := by
  cases k with
  | integer i => cases i <;> decide
  | float | double | bool | null => decide
  | _ => exact h.elim

end Kind

/-- The kind of what a unary operator gives for an operand of a kind. -/
inductive UnaryOperator.KindRule : UnaryOperator → Kind → Kind → Prop
  | minus {k : Kind} (hk : k.IsSigned) : KindRule .minus k k
  | plus {k : Kind} (hk : k.IsNumber) : KindRule .plus k k
  | bitNot {k : Kind} (hk : k.IsInteger) : KindRule .bitNot k k
  | not {k : Kind} (hk : k.IsTruth) : KindRule .not k .bool

/-- The kind of what a binary operator gives for operands of two kinds. -/
inductive BinaryOperator.KindRule : BinaryOperator → Kind → Kind → Kind → Prop
  | logical {o : BinaryOperator} {k l : Kind} (ho : o ∈ [.and, .or]) (hk : k.IsTruth)
      (hl : l.IsTruth) :
      KindRule o k l .bool
  | equality {o : BinaryOperator} {k l : Kind} (ho : o ∈ [.equal, .unequal])
      (h : k.IsNumber ∧ l.IsNumber ∨ k = l ∧ k ∈ [.string, .char, .bool, .null]) :
      KindRule o k l .bool
  | comparison {o : BinaryOperator} {k l : Kind}
      (ho : o ∈ [.less, .greater, .lessEqual, .greaterEqual]) (hk : k.IsNumber) (hl : l.IsNumber) :
      KindRule o k l .bool
  | arithmetic {o : BinaryOperator} {k l : Kind} (ho : o ∈ [.add, .sub, .mul, .div])
      (hk : k.IsNumber) (hl : l.IsNumber) : KindRule o k l (k.higher l)
  | integral {o : BinaryOperator} {k l : Kind} (ho : o ∈ [.mod, .bitAnd, .bitOr, .bitXor])
      (hk : k.IsInteger) (hl : l.IsInteger) : KindRule o k l (k.higher l)
  | shift {o : BinaryOperator} {k l : Kind} (ho : o ∈ [.shiftLeft, .shiftRight])
      (hk : k.IsInteger) (hl : l.IsInteger) : KindRule o k l k

theorem Value.exists_integer {v : Value} (h : v.kind.IsInteger) : ∃ n, v = .integer n := by
  cases v with
  | integer n => exact ⟨n, rfl⟩
  | _ => exact h.elim

theorem Value.exists_number {v : Value} (h : v.kind.IsNumber) : ∃ a, v.number? = some a := by
  cases v with
  | integer _ | float _ | double _ => exact ⟨_, rfl⟩
  | _ => exact h.elim

theorem safe_integerValue (k : IntegerKind) (n : Int) :
    (Kind.integer k).Safe (integerValue k n) := by
  unfold integerValue
  split
  next i hi => exact congrArg Kind.integer (Integer.of?_eq_some_iff.mp hi).1
  next => simp [Kind.Safe]

namespace UnaryOperator

variable {o : UnaryOperator} {k l : Kind}

theorem KindRule.ne_invalid (h : o.KindRule k l) : o ≠ .invalid := by
  cases h <;> simp

theorem KindRule.unique {l' : Kind} (h : o.KindRule k l) (h' : o.KindRule k l') : l = l' := by
  cases h <;> cases h' <;> rfl

/-- The kinds that an operator takes are admitted by the mask that it passes on. -/
theorem KindRule.intersects (h : o.KindRule k l) : o.operandMask.intersects k.mask := by
  cases h with
  | minus hk => exact hk.intersects
  | plus hk => exact hk.intersects
  | bitNot hk => exact hk.intersects
  | not hk => exact hk.intersects

theorem KindRule.safe (h : o.KindRule k l) {v : Value} (hv : v.kind = k) : l.Safe (o.apply v) := by
  subst hv
  cases h with
  | plus => rfl
  | not => rfl
  | bitNot hk =>
    obtain ⟨n, rfl⟩ := Value.exists_integer hk
    rfl
  | minus hk =>
    cases v with
    | integer n =>
      have hsigned : n.kind.isSigned = true := hk
      simp only [apply, hsigned, if_true]
      exact safe_integerValue _ _
    | float | double => rfl
    | _ => exact hk.elim

end UnaryOperator

namespace BinaryOperator

variable {o : BinaryOperator} {k l m : Kind}

theorem KindRule.ne_invalid (h : o.KindRule k l m) : o ≠ .invalid := by
  rintro rfl
  cases h <;> simp_all

/-- The kind of the result, if the kinds of the operands are those that the operator takes. -/
def resultKind (o : BinaryOperator) (k l : Kind) : Kind :=
  match o with
  | add | sub | mul | div | mod | bitAnd | bitOr | bitXor => k.higher l
  | shiftLeft | shiftRight => k
  | _ => .bool

theorem KindRule.eq_resultKind (h : o.KindRule k l m) : m = o.resultKind k l := by
  cases h with
  | logical ho | equality ho | comparison ho | arithmetic ho | integral ho | shift ho =>
    fin_cases ho <;> rfl

theorem KindRule.unique {m' : Kind} (h : o.KindRule k l m) (h' : o.KindRule k l m') : m = m' :=
  h.eq_resultKind.trans h'.eq_resultKind.symm

/-- A number, or another value, is admitted wherever values are compared. -/
theorem intersects_all {k : Kind} (h : k.IsNumber ∨ k ∈ [.string, .char, .bool, .null]) :
    Mask.all.intersects k.mask := by
  cases k with
  | integer i => cases i <;> decide
  | float | double | string | char | bool | null => decide
  | _ => simp [Kind.IsNumber] at h

theorem KindRule.intersects (h : o.KindRule k l m) :
    o.operandMask.intersects k.mask ∧ o.operandMask.intersects l.mask := by
  cases h with
  | logical ho hk hl =>
    have hmask : o.operandMask = .truth := by fin_cases ho <;> rfl
    exact hmask ▸ ⟨hk.intersects, hl.intersects⟩
  | equality ho h =>
    have hmask : o.operandMask = .all := by fin_cases ho <;> rfl
    rcases h with ⟨hk, hl⟩ | ⟨rfl, hk⟩
    · exact hmask ▸ ⟨intersects_all (.inl hk), intersects_all (.inl hl)⟩
    · exact hmask ▸ ⟨intersects_all (.inr hk), intersects_all (.inr hk)⟩
  | comparison ho hk hl | arithmetic ho hk hl =>
    have hmask : o.operandMask = .number := by fin_cases ho <;> rfl
    exact hmask ▸ ⟨hk.intersects, hl.intersects⟩
  | integral ho hk hl | shift ho hk hl =>
    have hmask : o.operandMask = .integer := by fin_cases ho <;> rfl
    exact hmask ▸ ⟨hk.intersects, hl.intersects⟩

/-- A shortened answer is a truth value, as the whole one is. -/
theorem KindRule.shortcut (h : o.KindRule k l m) {left b : Bool} (hb : o.shortcut? left = some b) :
    m = .bool := by
  rw [h.eq_resultKind]
  cases o with
  | and | or => rfl
  | _ => cases hb

theorem safe_words (ho : o ∈ [add, sub, mul, div, mod, bitAnd, bitOr, bitXor]) (x y : Wide)
    (k : IntegerKind) :
    (Kind.integer k).Safe (match onWords o x y with
      | .error e => .error e
      | .ok r => integerValue k r.toInt) := by
  have herror {e : EvaluationError} (he : onWords o x y = .error e) : e = .divisionByZero ∨
      e = .overflow := by
    fin_cases ho <;> simp only [onWords] at he
    all_goals grind
  split
  next e he => rcases herror he with rfl | rfl <;> simp [Kind.Safe]
  next r _ => exact safe_integerValue k r.toInt

theorem safe_arithmetic (ho : o ∈ [add, sub, mul, div]) {v w : Value} (hv : v.kind.IsNumber)
    (hw : w.kind.IsNumber) : (v.kind.higher w.kind).Safe (o.arithmetic v w) := by
  obtain ⟨a, ha⟩ := Value.exists_number hv
  obtain ⟨b, hb⟩ := Value.exists_number hw
  unfold arithmetic
  split
  next m n =>
    have hwords := safe_words (List.mem_append_left [mod, bitAnd, bitOr, bitXor] ho) m.wide n.wide
      (m.kind.promote n.kind)
    rw [Value.kind, Value.kind, Kind.higher_integer]
    exact hwords
  next hfloating =>
    have hkinds : ¬ (v.kind.IsInteger ∧ w.kind.IsInteger) := by
      rintro ⟨hv, hw⟩
      obtain ⟨m, hm⟩ := Value.exists_integer hv
      obtain ⟨n, hn⟩ := Value.exists_integer hw
      exact hfloating m n hm hn
    simp only [ha, hb, Kind.higher_floating hv hw hkinds]
    split <;> rfl

theorem safe_shift (m n : Integer) : (Kind.integer m.kind).Safe (o.shift m n) := by
  unfold shift
  split
  next => split <;> exact safe_integerValue _ _
  next => simp [Kind.Safe]

theorem safe_compareValues {v w : Value} (hv : v.kind.IsNumber) (hw : w.kind.IsNumber) :
    Kind.bool.Safe (o.compareValues v w) := by
  obtain ⟨a, ha⟩ := Value.exists_number hv
  obtain ⟨b, hb⟩ := Value.exists_number hw
  simp only [compareValues, ha, hb]
  rfl

theorem exists_valuesEqual {v w : Value}
    (h : v.kind.IsNumber ∧ w.kind.IsNumber ∨ v.kind = w.kind ∧
      v.kind ∈ [.string, .char, .bool, .null]) :
    ∃ b, valuesEqual v w = .ok b := by
  rcases h with ⟨hv, hw⟩ | ⟨heq, hv⟩
  · obtain ⟨a, ha⟩ := Value.exists_number hv
    obtain ⟨b, hb⟩ := Value.exists_number hw
    refine ⟨decide (a.compare? b = some .eq), ?_⟩
    unfold valuesEqual
    rw [ha, hb]
  · cases v with
    | string | char | bool | null => cases w <;> first | exact ⟨_, rfl⟩ | cases heq
    | _ => simp [Value.kind] at hv

theorem KindRule.safe (h : o.KindRule k l m) {v w : Value} (hv : v.kind = k) (hw : w.kind = l) :
    m.Safe (o.apply v w) := by
  subst hv hw
  cases h with
  | logical ho => fin_cases ho <;> rfl
  | equality ho h =>
    obtain ⟨b, hb⟩ := exists_valuesEqual h
    fin_cases ho <;> simp only [apply, hb] <;> rfl
  | comparison ho hk hl => fin_cases ho <;> exact safe_compareValues hk hl
  | arithmetic ho hk hl =>
    have happly : o.apply v w = o.arithmetic v w := by fin_cases ho <;> rfl
    rw [happly]
    exact safe_arithmetic ho hk hl
  | integral ho hk hl =>
    obtain ⟨m, rfl⟩ := Value.exists_integer hk
    obtain ⟨n, rfl⟩ := Value.exists_integer hl
    have hwords := safe_words (List.mem_append_right [add, sub, mul, div] ho) m.wide n.wide
      (m.kind.promote n.kind)
    rw [Value.kind, Value.kind, Kind.higher_integer]
    fin_cases ho <;> exact hwords
  | shift ho hk hl =>
    obtain ⟨m, rfl⟩ := Value.exists_integer hk
    obtain ⟨n, rfl⟩ := Value.exists_integer hl
    fin_cases ho <;> exact safe_shift m n

end BinaryOperator

end InterfaceCatalog
