import InterfaceCatalog.Proofs.Expression.Canonical
import InterfaceCatalog.Proofs.Query.Masks

namespace InterfaceCatalog

def Integer.least (k : IntegerKind) : Integer :=
  ⟨k, k.least, by
    have positive := k.size_pos
    unfold IntegerKind.Holds IntegerKind.greatest
    omega⟩

theorem Integer.eq_least {n : Integer} (h : n.val = n.kind.least) : n = .least n.kind := by
  obtain ⟨k, val, hholds⟩ := n
  obtain rfl : val = k.least := h
  rfl

/-- The least values of the signed kinds are the only ones without an opposite. -/
def Value.IsLeast (v : Value) : Prop :=
  ∃ k : IntegerKind, k.isSigned ∧ v = .integer (.least k)

theorem IntegerKind.holds_opposite {k : IntegerKind} {n : Int} (h : k.Holds n) (hneg : n < 0)
    (hleast : n ≠ k.least) : k.Holds (-n) := by
  obtain ⟨hlow, hhigh⟩ := h
  have hbounds : k.least < 0 → k.greatest = -k.least - 1 := by
    cases k <;> decide
  unfold Holds
  omega

theorem IntegerKind.isSigned_of_holds {k : IntegerKind} {n : Int} (h : k.Holds n) (hneg : n < 0) :
    k.isSigned := by
  have hleast := h.1
  by_contra hsigned
  have hzero : k.least = 0 := if_neg hsigned
  omega

namespace Tree

theorem splits_plain {t : Tree} (h : t.IsPlain) : Splits t.text.toList t.tokens := by
  have hend : Closes [] := fun c hc => by cases hc
  have hsplits := splits_text h hend (.finish (List.forall_mem_nil _))
  rwa [List.append_nil, List.append_nil] at hsplits

/-- The text of a negative integer is that of a negated literal. -/
theorem text_negated {n m : Integer} (hneg : n.val < 0) (hkind : m.kind = n.kind)
    (hval : m.val = -n.val) : (unary .minus (literal (.value (.integer m)))).text = n.text := by
  have hplain : (Literal.value (.integer m)).IsPlain := fun _ => by omega
  have hpos : ¬ -n.val < 0 := by omega
  have henclosed : (unary .minus (literal (.value (.integer m)))).text = "-" ++ m.text :=
    congrArg (UnaryOperator.minus.symbol ++ ·) (enclose_literal hplain)
  rw [henclosed, ← String.toList_inj]
  unfold Integer.text
  simp only [String.toList_append, toList_toString_int, hkind, hval, if_neg hpos, if_pos hneg,
    Int.natAbs_neg]
  rfl

end Tree

namespace Catalog

variable {c : Catalog} {id : Id .expressions}

theorem evaluate_value {v : Value} (h : (Tree.literal (.value v)).StoredAt c.records id) :
    c.evaluate id .all = .ok v := by
  have hget : c.get? id = some (.literal (.value v)) := h
  unfold evaluate maximumDepth
  rw [evaluateWithin_succ 255 hget, bind_restrict_all]
  rfl

theorem evaluate_negated {n : Integer} (hsigned : n.kind.isSigned)
    (h : (Tree.unary .minus (.literal (.value (.integer n)))).StoredAt c.records id) :
    c.evaluate id .all = integerValue n.kind (-n.val) := by
  obtain ⟨operand, hget, hoperand⟩ := h
  have hmask : Mask.signed.intersects (Value.integer n).kind.mask :=
    Kind.IsSigned.intersects hsigned
  have hvalue : c.evaluateWithin 255 operand .signed = .ok (.integer n) := by
    rw [evaluateWithin_succ 254 hoperand]
    exact restrict_eq_ok.mpr ⟨hmask, rfl⟩
  have hnode : c.nodeValue 255 .all (.unary .minus operand) =
      UnaryOperator.minus.apply (.integer n) :=
    Except.bind_of_eq_ok hvalue
  unfold evaluate maximumDepth
  rw [evaluateWithin_succ 255 hget, bind_restrict_all, hnode]
  exact if_pos hsigned

end Catalog

namespace Value

/-- The text of the value is that of an expression which evaluates to the value
wherever it is stored. -/
def EvaluatesBack (v : Value) : Prop :=
  ∃ t, Tree.parse v.text = .ok t ∧
    ∀ (c : Catalog) (id : Id .expressions), t.StoredAt c.records id → c.evaluate id .all = .ok v

variable {v : Value}

/-- A plain tree that has the text of a value has to evaluate to the value. -/
theorem evaluatesBack_of_text {t : Tree} (h : t.IsPlain) (htext : t.text = v.text)
    (hvalue : ∀ (c : Catalog) (id : Id .expressions), t.StoredAt c.records id →
      c.evaluate id .all = .ok v) :
    v.EvaluatesBack :=
  ⟨t, htext ▸ Tree.parse_of_splits (Tree.splits_plain h) (Tree.derives_tokens h), hvalue⟩

theorem evaluatesBack_of_plain (h : v.IsPlain) : v.EvaluatesBack :=
  evaluatesBack_of_text (t := .literal (.value v)) h rfl fun _ _ => Catalog.evaluate_value

theorem evaluatesBack_of_negative {n : Integer} (hneg : n.val < 0) (hleast : n.val ≠ n.kind.least) :
    (integer n).EvaluatesBack := by
  let m : Integer := ⟨n.kind, -n.val, IntegerKind.holds_opposite n.holds hneg hleast⟩
  have hplain : (Tree.unary .minus (.literal (.value (.integer m)))).IsPlain :=
    ⟨by decide, fun _ => by change 0 ≤ -n.val; omega⟩
  refine evaluatesBack_of_text hplain (Tree.text_negated hneg rfl rfl) fun c id hstored => ?_
  have hopposite : -m.val = n.val := Int.neg_neg n.val
  rw [Catalog.evaluate_negated (n := m) (IntegerKind.isSigned_of_holds n.holds hneg) hstored,
    hopposite]
  exact integerValue_of_holds n.holds

/-- A number and an operator on it. -/
def operating (o : UnaryOperator) (n : Integer) : Catalog :=
  let nodes : List ExpressionRecord := [.literal (.value (.integer n)), .unary o ⟨0, 0⟩]
  nodes.foldl (fun c node => c.insert (t := .expressions) node) {}

/-- The literal behind the sign of the least `int` is too great for an `int`, and there is none
behind the signs of the other two. -/
theorem not_evaluatesBack_of_least (h : v.IsLeast) : ¬ v.EvaluatesBack := by
  obtain ⟨k, hsigned, rfl⟩ := h
  rintro ⟨t, hparse, hevaluates⟩
  cases k with
  | uint | ulong | ullong => cases hsigned
  | int =>
    let long : Integer := ⟨.long, 2147483648, by decide⟩
    have hread : Tree.parse (integer (.least .int)).text =
        .ok (.unary .minus (.literal (.value (.integer long)))) := by decide +kernel
    have hvalue : (operating .minus long).evaluate ⟨1, 0⟩ .all ≠ .ok (.integer (.least .int)) := by
      decide +kernel
    rw [hread] at hparse
    cases hparse
    exact hvalue (hevaluates _ _ ⟨⟨0, 0⟩, rfl, rfl⟩)
  | long =>
    have hnone : (Tree.parse (integer (.least .long)).text).toOption = none := by decide +kernel
    rw [hparse] at hnone
    cases hnone
  | llong =>
    have hnone : (Tree.parse (integer (.least .llong)).text).toOption = none := by decide +kernel
    rw [hparse] at hnone
    cases hnone

/-- The text of a value that is not floating is an expression for the value, unless it is the least
one of a signed kind. -/
theorem evaluatesBack_iff (hfloat : v.kind ≠ .float) (hdouble : v.kind ≠ .double) :
    v.EvaluatesBack ↔ ¬ v.IsLeast := by
  refine ⟨fun h hleast => not_evaluatesBack_of_least hleast h, fun hleast => ?_⟩
  cases v with
  | integer n =>
    by_cases hneg : n.val < 0
    · have hsigned := IntegerKind.isSigned_of_holds n.holds hneg
      exact evaluatesBack_of_negative hneg fun hval =>
        hleast ⟨n.kind, hsigned, congrArg integer (Integer.eq_least hval)⟩
    · exact evaluatesBack_of_plain fun _ => Int.not_lt.mp hneg
  | float | double => first | exact absurd rfl hfloat | exact absurd rfl hdouble
  | string | char | bool | null => exact evaluatesBack_of_plain trivial

/-- The negative integer next to the least one. -/
theorem evaluatesBack_next : (integer ⟨.llong, -9223372036854775807, by decide⟩).text =
      "-9223372036854775807LL" ∧
    (integer ⟨.llong, -9223372036854775807, by decide⟩).EvaluatesBack := by
  refine ⟨by decide +kernel, (evaluatesBack_iff (by decide) (by decide)).mpr ?_⟩
  rintro ⟨k, -, hk⟩
  cases k <;> revert hk <;> decide

/-- The complements of the greatest integers of the signed kinds have texts that are not for
them. -/
theorem evaluatesBack_least :
    (operating .bitNot ⟨.int, 2147483647, by decide⟩).evaluate ⟨1, 0⟩ .all =
      .ok (.integer (.least .int)) ∧
      ¬ (integer (.least .int)).EvaluatesBack ∧
    (operating .bitNot ⟨.long, 9223372036854775807, by decide⟩).evaluate ⟨1, 0⟩ .all =
        .ok (.integer (.least .long)) ∧
      ¬ (integer (.least .long)).EvaluatesBack ∧
    (operating .bitNot ⟨.llong, 9223372036854775807, by decide⟩).evaluate ⟨1, 0⟩ .all =
        .ok (.integer (.least .llong)) ∧
      ¬ (integer (.least .llong)).EvaluatesBack :=
  ⟨by decide +kernel, not_evaluatesBack_of_least ⟨.int, rfl, rfl⟩,
    by decide +kernel, not_evaluatesBack_of_least ⟨.long, rfl, rfl⟩,
    by decide +kernel, not_evaluatesBack_of_least ⟨.llong, rfl, rfl⟩⟩

end Value

end InterfaceCatalog
