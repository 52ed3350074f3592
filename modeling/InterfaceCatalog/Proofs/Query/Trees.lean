import InterfaceCatalog.Proofs.Database.Reproduction
import InterfaceCatalog.Proofs.Expression.Arithmetic
import InterfaceCatalog.Proofs.Query.Depth

namespace InterfaceCatalog

open Catalog (restrict)

/-- What a tree evaluates to without a limit, where its names stand for what they
name in a catalog. -/
def Tree.Evaluates (c : Catalog) : Tree → Mask → Except EvaluationError Value → Prop
  | .literal (.value v), mask, r => r = restrict mask v
  | .literal (.name n), mask, r =>
    match c.definition n with
    | .error e => r = .error e
    | .ok target => ∃ value, c.Evaluates target mask value ∧ r = value >>= restrict mask
  | .unary o t, mask, r =>
    if o = .invalid then r = .error .invalidOperator
    else ∃ value, t.Evaluates c o.operandMask value ∧ r = value >>= o.apply >>= restrict mask
  | .binary o t u, mask, r =>
    if o = .invalid then r = .error .invalidOperator
    else ∃ left, t.Evaluates c o.operandMask left ∧
      match left with
      | .error e => r = .error e
      | .ok v =>
        match o.shortcut? v.isTrue with
        | some b => r = restrict mask (.bool b)
        | none => ∃ right, u.Evaluates c o.operandMask right ∧
            r = right >>= o.apply v >>= restrict mask

theorem Catalog.restrict_eq_ok {mask : Mask} {v w : Value} :
    restrict mask v = .ok w ↔ mask.intersects w.kind.mask ∧ v = w := by
  unfold restrict
  split
  next h =>
    rw [Except.ok.injEq]
    exact ⟨fun heq => ⟨heq ▸ h, heq⟩, And.right⟩
  next h => exact ⟨fun heq => (nomatch heq), fun hw => absurd (hw.2 ▸ hw.1) h⟩

theorem Catalog.bind_restrict_eq_ok {mask : Mask} {r : Except EvaluationError Value} {v : Value} :
    r >>= restrict mask = .ok v ↔ mask.intersects v.kind.mask ∧ r = .ok v := by
  constructor
  · intro h
    obtain ⟨w, rfl, hw⟩ := Except.bind_eq_ok h
    obtain ⟨hmask, rfl⟩ := restrict_eq_ok.mp hw
    exact ⟨hmask, rfl⟩
  · rintro ⟨hmask, rfl⟩
    exact restrict_eq_ok.mpr ⟨hmask, rfl⟩

namespace Catalog

variable {c : Catalog} {id t u : Id .expressions} {mask : Mask} {r : Except EvaluationError Value}

theorem evaluates_value_iff {v : Value} (hget : c.get? id = some (.literal (.value v))) :
    c.Evaluates id mask r ↔ r = restrict mask v := by
  refine ⟨fun h => ?_, fun h => h ▸ .value hget⟩
  cases h with
  | value hget' => cases hget.symm.trans hget'; rfl
  | missing hget' | undefined hget' | name hget' | invalidUnary hget' | unary hget'
      | invalidBinary hget'
  | left hget' | shortcut hget' | binary hget' => cases hget.symm.trans hget'

theorem evaluates_name_iff {n : String} (hget : c.get? id = some (.literal (.name n))) :
    c.Evaluates id mask r ↔ match c.definition n with
      | .error e => r = .error e
      | .ok target => ∃ value, c.Evaluates target mask value ∧ r = value >>= restrict mask := by
  constructor
  · intro h
    cases h with
    | undefined hget' hd => cases hget.symm.trans hget'; simp only [hd]
    | name hget' hd ht => cases hget.symm.trans hget'; simpa only [hd] using ⟨_, ht, rfl⟩
    | missing hget' | value hget' | invalidUnary hget' | unary hget' | invalidBinary hget'
        | left hget'
    | shortcut hget' | binary hget' => cases hget.symm.trans hget'
  · cases hd : c.definition n with
    | error e => exact fun h => h ▸ .undefined hget hd
    | ok target =>
      rintro ⟨value, ht, rfl⟩
      exact .name hget hd ht

theorem evaluates_unary_iff {o : UnaryOperator} (hget : c.get? id = some (.unary o t)) :
    c.Evaluates id mask r ↔ if o = .invalid then r = .error .invalidOperator
      else ∃ value, c.Evaluates t o.operandMask value ∧
        r = value >>= o.apply >>= restrict mask := by
  constructor
  · intro h
    cases h with
    | invalidUnary hget' => cases hget.symm.trans hget'; rw [if_pos rfl]
    | unary hget' ho ht => cases hget.symm.trans hget'; rw [if_neg ho]; exact ⟨_, ht, rfl⟩
    | missing hget' | value hget' | undefined hget' | name hget' | invalidBinary hget' | left hget'
    | shortcut hget' | binary hget' => cases hget.symm.trans hget'
  · split
    next ho => exact fun h => h ▸ .invalidUnary (ho ▸ hget)
    next ho =>
      rintro ⟨value, ht, rfl⟩
      exact .unary hget ho ht

theorem evaluates_binary_iff {o : BinaryOperator} (hget : c.get? id = some (.binary o t u)) :
    c.Evaluates id mask r ↔ if o = .invalid then r = .error .invalidOperator
      else ∃ left, c.Evaluates t o.operandMask left ∧
        match left with
        | .error e => r = .error e
        | .ok v =>
          match o.shortcut? v.isTrue with
          | some b => r = restrict mask (.bool b)
          | none => ∃ right, c.Evaluates u o.operandMask right ∧
              r = right >>= o.apply v >>= restrict mask := by
  constructor
  · intro h
    cases h with
    | invalidBinary hget' => cases hget.symm.trans hget'; rw [if_pos rfl]
    | left hget' ho ht => cases hget.symm.trans hget'; rw [if_neg ho]; exact ⟨_, ht, rfl⟩
    | shortcut hget' ho ht hshort =>
      cases hget.symm.trans hget'
      rw [if_neg ho]
      exact ⟨_, ht, by simp only [hshort]⟩
    | binary hget' ho ht hshort hu =>
      cases hget.symm.trans hget'
      rw [if_neg ho]
      exact ⟨_, ht, by simpa only [hshort] using ⟨_, hu, rfl⟩⟩
    | missing hget' | value hget' | undefined hget' | name hget' | invalidUnary hget'
        | unary hget' =>
      cases hget.symm.trans hget'
  · split
    next ho => exact fun h => h ▸ .invalidBinary (ho ▸ hget)
    next ho =>
      rintro ⟨left, ht, hr⟩
      cases left with
      | error e => exact hr ▸ .left hget ho ht
      | ok v =>
        cases hshort : o.shortcut? v.isTrue with
        | some b =>
          simp only [hshort] at hr
          exact hr ▸ .shortcut hget ho ht hshort
        | none =>
          simp only [hshort] at hr
          obtain ⟨right, hu, rfl⟩ := hr
          exact .binary hget ho ht hshort hu

theorem Evaluates.intersects {v : Value} (h : c.Evaluates id mask (.ok v)) :
    mask.intersects v.kind.mask := by
  obtain ⟨-, depth, hsettles⟩ := h.settles
  exact c.evaluateWithin_intersects ((hsettles depth).trans (if_pos (Nat.le_refl depth)))

/-- A value that is found under a mask is found under each other one that has it. -/
theorem Evaluates.widen {v : Value} (h : c.Evaluates id mask r) (hr : r = .ok v) {mask' : Mask}
    (hmask : mask'.intersects v.kind.mask) : c.Evaluates id mask' (.ok v) := by
  induction h generalizing v with
  | missing | undefined | invalidUnary | invalidBinary | left => cases hr
  | value hget =>
    obtain ⟨-, rfl⟩ := restrict_eq_ok.mp hr
    exact (evaluates_value_iff hget).mpr (restrict_eq_ok.mpr ⟨hmask, rfl⟩).symm
  | name hget hd _ ih =>
    obtain ⟨-, rfl⟩ := bind_restrict_eq_ok.mp hr
    exact bind_restrict_eq_ok.mpr ⟨hmask, rfl⟩ ▸ .name hget hd (ih rfl hmask)
  | unary hget ho ht =>
    exact bind_restrict_eq_ok.mpr ⟨hmask, (bind_restrict_eq_ok.mp hr).2⟩ ▸ .unary hget ho ht
  | shortcut hget ho ht hshort =>
    exact restrict_eq_ok.mpr ⟨hmask, (restrict_eq_ok.mp hr).2⟩ ▸ .shortcut hget ho ht hshort
  | binary hget ho ht hshort hu =>
    exact bind_restrict_eq_ok.mpr ⟨hmask, (bind_restrict_eq_ok.mp hr).2⟩ ▸
      .binary hget ho ht hshort hu

end Catalog

namespace Tree

variable {c : Catalog} {mask : Mask} {r : Except EvaluationError Value}

theorem evaluates_binary_iff {o : BinaryOperator} {t u : Tree} :
    (binary o t u).Evaluates c mask r ↔ if o = .invalid then r = .error .invalidOperator
      else ∃ left, t.Evaluates c o.operandMask left ∧
        match left with
        | .error e => r = .error e
        | .ok v =>
          match o.shortcut? v.isTrue with
          | some b => r = restrict mask (.bool b)
          | none => ∃ right, u.Evaluates c o.operandMask right ∧
              r = right >>= o.apply v >>= restrict mask :=
  Iff.rfl

/-- A tree that is stored evaluates to what its stored expression does. -/
theorem evaluates_iff_of_storedAt {tree : Tree} {id : Id .expressions}
    (h : tree.StoredAt c.records id) : tree.Evaluates c mask r ↔ c.Evaluates id mask r := by
  induction tree generalizing id mask r with
  | literal l =>
    cases l with
    | value v => exact (Catalog.evaluates_value_iff h).symm
    | name n => exact (Catalog.evaluates_name_iff h).symm
  | unary o t ih =>
    obtain ⟨operand, hget, ht⟩ := h
    simp only [Catalog.evaluates_unary_iff hget, Tree.Evaluates, ih ht]
  | binary o t u iht ihu =>
    obtain ⟨lhs, rhs, hget, ht, hu⟩ := h
    simp only [Catalog.evaluates_binary_iff hget, evaluates_binary_iff, iht ht, ihu hu]

theorem Evaluates.widen {tree : Tree} {v : Value} (h : tree.Evaluates c mask (.ok v)) {mask' : Mask}
    (hmask : mask'.intersects v.kind.mask) : tree.Evaluates c mask' (.ok v) := by
  cases tree with
  | literal l =>
    cases l with
    | value w =>
      obtain ⟨-, rfl⟩ := Catalog.restrict_eq_ok.mp (Eq.symm h)
      exact (Catalog.restrict_eq_ok.mpr ⟨hmask, rfl⟩).symm
    | name n =>
      unfold Tree.Evaluates at h ⊢
      cases hd : c.definition n with
      | error e => rw [hd] at h; cases h
      | ok target =>
        rw [hd] at h
        obtain ⟨value, ht, hr⟩ := h
        obtain ⟨-, rfl⟩ := Catalog.bind_restrict_eq_ok.mp hr.symm
        exact ⟨_, ht.widen rfl hmask, (Catalog.bind_restrict_eq_ok.mpr ⟨hmask, rfl⟩).symm⟩
  | unary o t =>
    unfold Tree.Evaluates at h ⊢
    split at h
    next => cases h
    next ho =>
      rw [if_neg ho]
      obtain ⟨value, ht, hr⟩ := h
      exact ⟨value, ht, (Catalog.bind_restrict_eq_ok.mpr
        ⟨hmask, (Catalog.bind_restrict_eq_ok.mp hr.symm).2⟩).symm⟩
  | binary o t u =>
    rw [evaluates_binary_iff] at h ⊢
    split at h
    next => cases h
    next ho =>
      rw [if_neg ho]
      obtain ⟨left, ht, hr⟩ := h
      refine ⟨left, ht, ?_⟩
      cases left with
      | error e => cases hr
      | ok w =>
        dsimp only at hr ⊢
        cases hshort : o.shortcut? w.isTrue with
        | some b =>
          rw [hshort] at hr
          exact (Catalog.restrict_eq_ok.mpr
            ⟨hmask, (Catalog.restrict_eq_ok.mp (Eq.symm hr)).2⟩).symm
        | none =>
          rw [hshort] at hr
          obtain ⟨right, hu, hr⟩ := hr
          exact ⟨right, hu, (Catalog.bind_restrict_eq_ok.mpr
            ⟨hmask, (Catalog.bind_restrict_eq_ok.mp hr.symm).2⟩).symm⟩

end Tree

end InterfaceCatalog
