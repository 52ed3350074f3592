import InterfaceCatalog.Proofs.Expression.Floating
import InterfaceCatalog.Proofs.Query.Trees

namespace InterfaceCatalog

/-- The exact result of an operation on integers, if it is one of arithmetic and does
not divide by zero. -/
def BinaryOperator.exactInteger? (o : BinaryOperator) (m n : Int) : Option Int :=
  match o with
  | add => some (m + n)
  | sub => some (m - n)
  | mul => some (m * n)
  | div => if n = 0 then none else some (m.tdiv n)
  | mod => if n = 0 then none else some (m.tmod n)
  | _ => none

theorem BinaryOperator.mem_of_exactInteger? {o : BinaryOperator} {m n r : Int}
    (h : o.exactInteger? m n = some r) : o ∈ [add, sub, mul, div, mod] := by
  cases o with
  | add | sub | mul | div | mod => simp
  | _ => cases h

theorem BinaryOperator.apply_zero {o : BinaryOperator} (ho : o = div ∨ o = mod) (m : Integer)
    {n : Integer} (hzero : n.val = 0) :
    o.apply (.integer m) (.integer n) = .error .divisionByZero := by
  have hgives := o.apply_gives m n
  obtain rfl | rfl := ho
  · exact hgives.1 hzero
  · exact hgives.1 hzero

theorem BinaryOperator.apply_overflow {o : BinaryOperator} {m n : Integer} {r : Int}
    (hr : o.exactInteger? m.val n.val = some r) (hholds : ¬ (m.kind.promote n.kind).Holds r) :
    o.apply (.integer m) (.integer n) = .error .overflow := by
  have hgives := o.apply_gives m n
  cases o with
  | add | sub | mul => cases hr; exact hgives.2 hholds
  | div | mod =>
    simp only [exactInteger?] at hr
    split at hr
    next => cases hr
    next hne => cases hr; exact (hgives.2 hne).2 hholds
  | _ => cases hr

namespace Catalog

variable {c : Catalog} {id : Id .expressions} {mask : Mask}

/-- The operands of the expression evaluate to finite values, and its operation escapes. -/
def Escapes (c : Catalog) (id : Id .expressions) : Prop :=
  ∃ o t u v w, c.get? id = some (.binary o t u) ∧ c.Evaluates t o.operandMask (.ok v) ∧
    c.Evaluates u o.operandMask (.ok w) ∧ v.IsFinite ∧ w.IsFinite ∧ o.Escapes v w

/-- The literals that the evaluation of the expression comes to are finite. -/
def HasFiniteLiterals (c : Catalog) (id : Id .expressions) : Prop :=
  ∀ leaf, Relation.ReflTransGen c.Follows id leaf → ∀ v, c.get? leaf = some (.literal (.value v)) →
    v.IsFinite

theorem HasFiniteLiterals.follows {next : Id .expressions} (h : c.HasFiniteLiterals id)
    (hnext : c.Follows id next) : c.HasFiniteLiterals next :=
  fun leaf hleaf => h leaf (.head hnext hleaf)

/-- Some operation that the evaluation of the expression comes to escapes. -/
def EscapesWithin (c : Catalog) (id : Id .expressions) : Prop :=
  ∃ node, Relation.ReflTransGen c.Follows id node ∧ c.Escapes node

theorem EscapesWithin.follows {next : Id .expressions} (hnext : c.Follows id next)
    (h : c.EscapesWithin next) : c.EscapesWithin id := by
  obtain ⟨node, hreach, hnode⟩ := h
  exact ⟨node, .head hnext hreach, hnode⟩

/-- By induction on the evaluation: what is finite so far stays finite up to an
operation that escapes. -/
theorem Evaluates.isFinite {r : Except EvaluationError Value} (h : c.Evaluates id mask r)
    (hliterals : c.HasFiniteLiterals id) {v : Value} (hr : r = .ok v) :
    v.IsFinite ∨ c.EscapesWithin id := by
  induction h generalizing v with
  | missing | undefined | invalidUnary | invalidBinary | left => cases hr
  | value hget =>
    obtain ⟨-, rfl⟩ := restrict_eq_ok.mp hr
    exact .inl (hliterals _ .refl _ hget)
  | name hget hd ht ih =>
    have hfollows : c.Follows _ _ := .name hget hd
    obtain ⟨-, rfl⟩ := bind_restrict_eq_ok.mp hr
    exact (ih (hliterals.follows hfollows) rfl).imp_right (.follows hfollows)
  | unary hget ho ht ih =>
    have hfollows : c.Follows _ _ := .operand hget ho
    obtain ⟨x, rfl, happly⟩ := Except.bind_eq_ok (bind_restrict_eq_ok.mp hr).2
    obtain hx | hescapes := ih (hliterals.follows hfollows) rfl
    · exact .inl (UnaryOperator.apply_isFinite hx happly)
    · exact .inr (hescapes.follows hfollows)
  | shortcut hget ho ht hshort ih =>
    obtain ⟨-, rfl⟩ := restrict_eq_ok.mp hr
    exact .inl trivial
  | @binary id t u mask o x r hget ho ht hshort hu iht ihu =>
    have hleft : c.Follows id t := .left hget ho
    have hright : c.Follows id u := .right hget ho ht hshort
    obtain ⟨y, rfl, happly⟩ := Except.bind_eq_ok (bind_restrict_eq_ok.mp hr).2
    obtain hx | hescapes := iht (hliterals.follows hleft) rfl
    · obtain hy | hescapes := ihu (hliterals.follows hright) rfl
      · exact (BinaryOperator.apply_isFinite hx hy happly).imp_right fun hescapes =>
          ⟨id, .refl, o, t, u, x, y, hget, ht, hu, hx, hy, hescapes⟩
      · exact .inr (hescapes.follows hright)
    · exact .inr (hescapes.follows hleft)

theorem evaluates_of_evaluate {v : Value} (h : c.evaluate id mask = .ok v) :
    c.Evaluates id mask (.ok v) :=
  h ▸ evaluates_of_evaluateWithin (by rw [← evaluate, h]; simp)

theorem evaluates_apply (mask : Mask) {o : BinaryOperator} (ho : o ∈ [.add, .sub, .mul, .div, .mod])
    {t u : Id .expressions} {v w : Value} (hget : c.get? id = some (.binary o t u))
    (ht : c.Evaluates t o.operandMask (.ok v)) (hu : c.Evaluates u o.operandMask (.ok w)) :
    c.Evaluates id mask (o.apply v w >>= restrict mask) := by
  have hvalid : o ≠ .invalid ∧ o.shortcut? v.isTrue = none := by
    fin_cases ho <;> exact ⟨by decide, rfl⟩
  exact .binary hget hvalid.1 ht hvalid.2 hu

theorem Escapes.evaluates (h : c.Escapes id) :
    ∃ r : Value, ¬ r.IsFinite ∧ ∀ mask, c.Evaluates id mask (restrict mask r) := by
  obtain ⟨o, t, u, v, w, hget, ht, hu, hv, hw, x, y, hfloats, hbeyond⟩ := h
  obtain ⟨r, happly, -, hfinite⟩ := hfloats.apply hv hw
  refine ⟨r, fun hr => hfinite.mp hr ⟨x, y, hfloats, hbeyond⟩, fun mask => ?_⟩
  have hevaluates := evaluates_apply mask (List.mem_append_left [.mod] hfloats.operator) hget ht hu
  rwa [happly] at hevaluates

/-- From finite literals an evaluation only comes to an infinite value, or one that is no number, by
an operation that escapes; such an operation is no error, whereas integers that are divided by zero
and results that no integer of the kind holds are. -/
theorem evaluate_isFinite (c : Catalog) :
    (∀ id mask v, c.HasFiniteLiterals id → c.evaluate id mask = .ok v → v.IsFinite ∨
      c.EscapesWithin id) ∧
    (∀ id, c.Escapes id → ∃ r : Value, ¬ r.IsFinite ∧
      ∀ mask, c.Evaluates id mask (restrict mask r)) ∧
    ∀ (id : Id .expressions) (mask : Mask) (o : BinaryOperator) (t u : Id .expressions)
      (m n : Integer),
      c.get? id = some (.binary o t u) → c.Evaluates t o.operandMask (.ok (.integer m)) →
      c.Evaluates u o.operandMask (.ok (.integer n)) →
      (o = .div ∨ o = .mod → n.val = 0 → c.Evaluates id mask (.error .divisionByZero)) ∧
      ∀ r, o.exactInteger? m.val n.val = some r → ¬ (m.kind.promote n.kind).Holds r →
        c.Evaluates id mask (.error .overflow) := by
  refine ⟨fun id mask v hliterals hv => (evaluates_of_evaluate hv).isFinite hliterals rfl,
    fun id => Escapes.evaluates, fun id mask o t u m n hget ht hu =>
    ⟨fun ho hzero => ?_, fun r hr hholds => ?_⟩⟩
  · have harithmetic : o ∈ [.add, .sub, .mul, .div, .mod] := by
      obtain rfl | rfl := ho <;> simp
    have hevaluates := evaluates_apply mask harithmetic hget ht hu
    rwa [BinaryOperator.apply_zero ho m hzero] at hevaluates
  · have hevaluates := evaluates_apply mask (BinaryOperator.mem_of_exactInteger? hr) hget ht hu
    rwa [BinaryOperator.apply_overflow hr hholds] at hevaluates

theorem hasFiniteLiterals_of_entries (h : ∀ e ∈ c.store.expressions.entries, ∀ v : Value,
    e.2 = .literal (.value v) → v.IsFinite) : c.HasFiniteLiterals id :=
  fun _ _ v hget => h _ (mem_entries_of_get? hget) v rfl

/-- One and zero as doubles with two quotients of them, the greatest double with its own double, and
zero and the greatest number as integers with a remainder and a sum. -/
def quotientNodes : List ExpressionRecord :=
  let double (index : Nat) (h : index < FloatFormat.double.top) : ExpressionRecord :=
    .literal (.value (.double (.finite false ⟨index, h⟩)))
  [double (1023 * 2 ^ 52) (by decide +kernel), double 0 (by decide +kernel),
    .binary .div ⟨0, 0⟩ ⟨1, 0⟩, .binary .div ⟨1, 0⟩ ⟨1, 0⟩,
    double (2047 * 2 ^ 52 - 1) (by decide +kernel), .binary .add ⟨4, 0⟩ ⟨4, 0⟩,
    .literal (.value (.integer ⟨.int, 0, by decide⟩)), .binary .mod ⟨6, 0⟩ ⟨6, 0⟩,
    .literal (.value (.integer ⟨.int, 2147483647, by decide⟩)), .binary .add ⟨8, 0⟩ ⟨8, 0⟩]

def quotients : Catalog :=
  quotientNodes.foldl (fun c node => c.insert (t := .expressions) node) {}

theorem quotients_hasFiniteLiterals (id : Id .expressions) : quotients.HasFiniteLiterals id := by
  refine hasFiniteLiterals_of_entries fun e he v hv => ?_
  have hnodes : quotients.store.expressions.entries.map Prod.snd = quotientNodes := by
    decide +kernel
  have hnode : ExpressionRecord.literal (.value v) ∈ quotientNodes := by
    rw [← hv, ← hnodes]
    exact List.mem_map_of_mem he
  simp only [quotientNodes, List.mem_cons, ExpressionRecord.literal.injEq, Literal.value.injEq,
    reduceCtorEq, List.not_mem_nil, false_or, or_false] at hnode
  rcases hnode with rfl | rfl | rfl | rfl | rfl
  all_goals first | exact ⟨_, _, rfl⟩ | trivial

theorem quotients_escapes : quotients.Escapes ⟨3, 0⟩ := by
  let zero : Double := .finite false ⟨0, by decide +kernel⟩
  have hzero : quotients.Evaluates ⟨1, 0⟩ .number (.ok (.double zero)) :=
    evaluates_of_evaluate (by decide +kernel)
  have hamount : zero.amount = 0 := zero_div _
  exact ⟨.div, ⟨1, 0⟩, ⟨1, 0⟩, .double zero, .double zero, rfl, hzero, hzero, ⟨_, _, rfl⟩,
    ⟨_, _, rfl⟩, zero, zero, ⟨by simp, rfl, rfl, And.left⟩, .inl ⟨rfl, hamount⟩⟩

theorem evaluate_isFinite_quotients :
    quotients.EscapesWithin ⟨2, 0⟩ ∧
      (∃ r : Value, ¬ r.IsFinite ∧ ∀ mask, quotients.Evaluates ⟨3, 0⟩ mask (restrict mask r)) ∧
      quotients.Evaluates ⟨7, 0⟩ .all (.error .divisionByZero) ∧
      quotients.Evaluates ⟨9, 0⟩ .all (.error .overflow) := by
  obtain ⟨hfinite, hescapes, hintegers⟩ := quotients.evaluate_isFinite
  have hvalue : quotients.evaluate ⟨2, 0⟩ .all = .ok (.double (.infinite false)) := by
    decide +kernel
  have hzero : quotients.Evaluates ⟨6, 0⟩ .integer (.ok (.integer ⟨.int, 0, by decide⟩)) :=
    evaluates_of_evaluate (by decide +kernel)
  have hgreatest : quotients.Evaluates ⟨8, 0⟩ .number
      (.ok (.integer ⟨.int, 2147483647, by decide⟩)) :=
    evaluates_of_evaluate (by decide +kernel)
  refine ⟨?_, hescapes _ quotients_escapes, ?_, ?_⟩
  · exact (hfinite _ _ _ (quotients_hasFiniteLiterals _) hvalue).resolve_left
      (Binary.not_isFinite_infinite false)
  · exact (hintegers ⟨7, 0⟩ .all .mod _ _ _ _ rfl hzero hzero).1 (.inr rfl) rfl
  · exact (hintegers ⟨9, 0⟩ .all .add _ _ _ _ rfl hgreatest hgreatest).2 4294967294
      (by decide) (by decide)

/-- One by zero, zero by zero and a sum that is too great are values. -/
theorem evaluate_infinite :
    (∀ id, quotients.HasFiniteLiterals id) ∧
      quotients.evaluate ⟨2, 0⟩ .all = .ok (.double (.infinite false)) ∧
      quotients.evaluate ⟨3, 0⟩ .all = .ok (.double .nan) ∧
      quotients.evaluate ⟨5, 0⟩ .all = .ok (.double (.infinite false)) :=
  ⟨quotients_hasFiniteLiterals, by decide +kernel, by decide +kernel, by decide +kernel⟩

end Catalog

end InterfaceCatalog
