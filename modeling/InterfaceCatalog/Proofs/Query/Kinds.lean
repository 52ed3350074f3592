import InterfaceCatalog.Proofs.Expression.Kinds
import InterfaceCatalog.Proofs.Query.Depth

namespace InterfaceCatalog

namespace Catalog

variable {c : Catalog}

/-- The kind of the values of an expression, as far as its literals, its names and its
operators say. A name has the kind of what it stands for, so that nothing that is defined by
itself has a kind. -/
inductive HasKind (c : Catalog) : Id .expressions → Kind → Prop
  | value {id : Id .expressions} {v : Value} (hget : c.get? id = some (.literal (.value v))) :
      HasKind c id v.kind
  | name {id target : Id .expressions} {n : String} {k : Kind}
      (hget : c.get? id = some (.literal (.name n))) (hd : c.definition n = .ok target)
      (ht : HasKind c target k) : HasKind c id k
  | unary {id t : Id .expressions} {o : UnaryOperator} {k l : Kind}
      (hget : c.get? id = some (.unary o t)) (ho : o.KindRule k l) (ht : HasKind c t k) :
      HasKind c id l
  | binary {id t u : Id .expressions} {o : BinaryOperator} {k l m : Kind}
      (hget : c.get? id = some (.binary o t u)) (ho : o.KindRule k l m) (ht : HasKind c t k)
      (hu : HasKind c u l) : HasKind c id m

theorem HasKind.unique {id : Id .expressions} {k l : Kind} (hk : c.HasKind id k)
    (hl : c.HasKind id l) : l = k := by
  induction hk generalizing l with
  | value hget => cases hl <;> simp_all
  | name hget hd _ ih =>
    cases hl with
    | name hget' hd' ht' =>
      cases hget.symm.trans hget'
      cases hd.symm.trans hd'
      exact ih ht'
    | value hget' | unary hget' | binary hget' => cases hget.symm.trans hget'
  | unary hget ho _ ih =>
    cases hl with
    | unary hget' ho' ht' =>
      cases hget.symm.trans hget'
      cases ih ht'
      exact ho'.unique ho
    | value hget' | name hget' | binary hget' => cases hget.symm.trans hget'
  | binary hget ho _ _ iht ihu =>
    cases hl with
    | binary hget' ho' ht' hu' =>
      cases hget.symm.trans hget'
      cases iht ht'
      cases ihu hu'
      exact ho'.unique ho
    | value hget' | name hget' | unary hget' => cases hget.symm.trans hget'

theorem safe_restrict {k : Kind} {mask : Mask} (hmask : mask.intersects k.mask) {v : Value}
    (hv : v.kind = k) : k.Safe (restrict mask v) := by
  rw [restrict, hv, if_pos hmask]
  exact hv

/-- The evaluation of an expression of a kind gives a value of this kind, or it fails for a reason
that its kind does not tell. -/
theorem HasKind.safe {id : Id .expressions} {k : Kind} (h : c.HasKind id k) {mask : Mask}
    (hmask : mask.intersects k.mask) (limit : Nat) : k.Safe (c.evaluateWithin limit id mask) := by
  induction h generalizing mask limit with
  | value hget =>
    cases limit with
    | zero => simp [evaluateWithin, Kind.Safe]
    | succ limit =>
      rw [evaluateWithin_succ limit hget]
      exact safe_restrict hmask rfl
  | name hget hd _ ih =>
    cases limit with
    | zero => simp [evaluateWithin, Kind.Safe]
    | succ limit =>
      rw [evaluateWithin_succ limit hget, nodeValue, Except.bind_of_eq_ok hd]
      exact (ih hmask limit).bind fun v hv => safe_restrict hmask hv
  | @unary id t o k l hget ho _ ih =>
    cases limit with
    | zero => simp [evaluateWithin, Kind.Safe]
    | succ limit =>
      rw [evaluateWithin_succ limit hget, nodeValue, if_neg ho.ne_invalid]
      have hoperand := (ih ho.intersects limit).bind fun v hv => ho.safe hv
      exact hoperand.bind fun v hv => safe_restrict hmask hv
  | @binary id t u o k l m hget ho _ _ iht ihu =>
    cases limit with
    | zero => simp [evaluateWithin, Kind.Safe]
    | succ limit =>
      rw [evaluateWithin_succ limit hget, nodeValue, if_neg ho.ne_invalid]
      obtain ⟨hleft, hright⟩ := ho.intersects
      refine Kind.Safe.bind ((iht hleft limit).bind fun v hv => ?_) fun v hv =>
        safe_restrict hmask hv
      cases hshort : o.shortcut? v.isTrue with
      | some b => exact (ho.shortcut hshort).symm
      | none => exact (ihu hright limit).bind fun w hw => ho.safe hv hw

theorem live_of_view? {t : Table} {id : Id t} {v : View t} (h : c.view? id = some v) :
    c.Live v.id := by
  obtain ⟨r, hr, rfl⟩ := Option.map_eq_some_iff.mp h
  exact live_of_get? hr

theorem live_of_definition {name : String} {target : Id .expressions}
    (h : c.definition name = .ok target) : c.Live target := by
  unfold definition at h
  dsimp only at h
  split at h
  next v _ =>
    split at h
    next =>
      split at h
      next value hvalue =>
        cases h
        obtain ⟨id, -, hview⟩ := Option.bind_eq_some_iff.mp hvalue
        exact live_of_view? hview
      next => cases h
    next => cases h
  next =>
    split at h
    next value hvalue =>
      cases h
      obtain ⟨f, -, hvalue⟩ := Option.bind_eq_some_iff.mp hvalue
      simp only [enumFieldValue?, Bool.or_true, if_true] at hvalue
      exact live_of_view? hvalue
    next => cases h

/-- No evaluation comes to an expression that is not there. -/
theorem evaluateWithin_ne_invalidHandle (hown : c.KeepsOwn) {id : Id .expressions}
    (hlive : c.Live id) (limit : Nat) (mask : Mask) :
    c.evaluateWithin limit id mask ≠ .error .invalidHandle := by
  induction limit generalizing id mask with
  | zero => simp [evaluateWithin]
  | succ limit ih =>
    obtain ⟨r, hget⟩ := exists_of_live hlive
    have hoperand {t : Id .expressions} (ht : ⟨.expressions, t⟩ ∈ references .expressions r) :
        c.Live t :=
      hown hget ⟨.expressions, t⟩ ht (by simp [Table.IsShared])
    rw [evaluateWithin_succ limit hget, ne_eq,
      bind_eq_outer (failsInside_restrict mask) EvaluationError.invalidHandle_isOuter]
    cases r with
    | literal l =>
      cases l with
      | value v => simp [nodeValue]
      | name n =>
        simp only [nodeValue]
        cases hd : c.definition n with
        | error e =>
          intro he
          cases he
          exact failsInside_definition c n _ hd EvaluationError.invalidHandle_isOuter
        | ok target => exact ih (live_of_definition hd) mask
    | unary o t =>
      simp only [nodeValue]
      split
      next => simp
      next =>
        rw [bind_eq_outer o.failsInside EvaluationError.invalidHandle_isOuter]
        exact ih (hoperand (by simp [references])) _
    | binary o t u =>
      simp only [nodeValue]
      split
      next => simp
      next =>
        have ht := ih (hoperand (t := t) (by simp [references])) o.operandMask
        cases hv : c.evaluateWithin limit t o.operandMask with
        | error e =>
          intro he
          cases he
          exact ht hv
        | ok v =>
          rw [Except.bind_of_eq_ok rfl]
          cases o.shortcut? v.isTrue with
          | some b => simp
          | none =>
            dsimp only
            rw [bind_eq_outer (o.failsInside v) EvaluationError.invalidHandle_isOuter]
            exact ih (hoperand (by simp [references])) _

end Catalog

namespace Database

/-- No expression of a parsed file leads to one that is not there. One that has a kind has no
other one, and whoever admits this kind gets a value of it, or an error that depends on the
values that are met. -/
theorem Reachable.evaluate_safe {db : Database} (h : db.Reachable) (id : Id .expressions) :
    (db.catalog.Live id → ∀ mask, db.catalog.evaluate id mask ≠ .error .invalidHandle) ∧
      ∀ k, db.catalog.HasKind id k → (∀ l, db.catalog.HasKind id l → l = k) ∧
        ∀ mask, mask.intersects k.mask →
          (∃ v, db.catalog.evaluate id mask = .ok v ∧ v.kind = k) ∨
          ∃ e ∈ [EvaluationError.divisionByZero, .overflow, .invalidShift, .tooDeep],
            db.catalog.evaluate id mask = .error e := by
  have hown : db.catalog.KeepsOwn := h.keepsOwn
  refine ⟨fun hlive => Catalog.evaluateWithin_ne_invalidHandle hown hlive maximumDepth,
    fun k hk => ?_⟩
  refine ⟨fun l hl => hk.unique hl, fun mask hmask => ?_⟩
  have hsafe := hk.safe hmask maximumDepth
  change k.Safe (db.catalog.evaluate id mask) at hsafe
  cases hv : db.catalog.evaluate id mask with
  | ok v => exact .inl ⟨v, rfl, by rwa [hv] at hsafe⟩
  | error e => exact .inr ⟨e, by rwa [hv] at hsafe, rfl⟩

def mixedDatabase : Database :=
  let ulong : TypeSource := .named "ulong" ⟨false, false, false⟩ none []
  { cyclicDatabase with
    reader := fun _ _ =>
      .ok {
        declaredClass := some { name := "A" }
        enums := [{ name := "E", fields := [{ name := "F", value := some "2" }] }]
        constants := [{ name := "C", type := ulong, value := some "-E.F + 3UL" }] } }

def mixedParsed : Database :=
  (mixedDatabase.parse cyclicDisk "a.eo").2

theorem mixedParsed_reachable : mixedParsed.Reachable :=
  .parse cyclicDisk "a.eo" (scanned_reachable _)

/-- The negated field is an `int`, and the sum is of the kind of its other operand. -/
theorem mixedParsed_hasKind : mixedParsed.catalog.HasKind ⟨4, 0⟩ (.integer .ulong) := by
  have htwo : mixedParsed.catalog.HasKind ⟨0, 0⟩ (.integer .int) :=
    .value (v := .integer ⟨.int, 2, by decide⟩) (by decide +kernel)
  have hfield : mixedParsed.catalog.HasKind ⟨1, 0⟩ (.integer .int) :=
    .name (n := "E.F") (by decide +kernel) (by decide +kernel) htwo
  have hnegated : mixedParsed.catalog.HasKind ⟨2, 0⟩ (.integer .int) :=
    .unary (by decide +kernel) (.minus (k := .integer .int) rfl) hfield
  have hthree : mixedParsed.catalog.HasKind ⟨3, 0⟩ (.integer .ulong) :=
    .value (v := .integer ⟨.ulong, 3, by decide⟩) (by decide +kernel)
  exact .binary (o := .add) (by decide +kernel)
    (.arithmetic (k := .integer .int) (l := .integer .ulong) (by decide) trivial trivial)
      hnegated hthree

theorem evaluate_safe_mixed :
    ∃ v, mixedParsed.catalog.evaluate ⟨4, 0⟩ .number = .ok v ∧ v.kind = .integer .ulong := by
  have hone : mixedParsed.catalog.evaluate ⟨4, 0⟩ .number =
      .ok (.integer ⟨.ulong, 1, by decide⟩) := by
    decide +kernel
  obtain ⟨-, hsafe⟩ :=
    (mixedParsed_reachable.evaluate_safe ⟨4, 0⟩).2 (.integer .ulong) mixedParsed_hasKind
  rcases hsafe .number (by decide) with hv | ⟨e, -, he⟩
  · exact hv
  · cases hone.symm.trans he

end Database

end InterfaceCatalog
