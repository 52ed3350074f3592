import InterfaceCatalog.Proofs.Expression.Failure
import InterfaceCatalog.Proofs.Query.Evaluation
import Mathlib.Logic.Relation

namespace InterfaceCatalog

namespace Catalog

open EvaluationError (tooDeep_isOuter)

variable {c : Catalog}

theorem failsInside_restrict (mask : Mask) (v : Value) : FailsInside (restrict mask v) := by
  unfold restrict
  split
  next => exact failsInside_ok v
  next => exact failsInside_error id

theorem failsInside_definition (c : Catalog) (name : String) : FailsInside (c.definition name) := by
  unfold definition
  dsimp only
  split
  next =>
    split
    next => split <;> first | exact failsInside_ok _ | exact failsInside_error id
    next => exact failsInside_error id
  next => split <;> first | exact failsInside_ok _ | exact failsInside_error id

/-- What an expression evaluates to, however deep its operands and names lead. -/
inductive Evaluates (c : Catalog) : Id .expressions → Mask → Except EvaluationError Value → Prop
  | missing {id : Id .expressions} {mask : Mask} (hget : c.get? id = none) :
      Evaluates c id mask (.error .invalidHandle)
  | value {id : Id .expressions} {mask : Mask} {v : Value}
      (hget : c.get? id = some (.literal (.value v))) :
      Evaluates c id mask (restrict mask v)
  | undefined {id : Id .expressions} {mask : Mask} {n : String} {e : EvaluationError}
      (hget : c.get? id = some (.literal (.name n))) (hd : c.definition n = .error e) :
      Evaluates c id mask (.error e)
  | name {id target : Id .expressions} {mask : Mask} {n : String} {r : Except EvaluationError Value}
      (hget : c.get? id = some (.literal (.name n))) (hd : c.definition n = .ok target)
      (ht : Evaluates c target mask r) : Evaluates c id mask (r >>= restrict mask)
  | invalidUnary {id t : Id .expressions} {mask : Mask}
      (hget : c.get? id = some (.unary .invalid t)) :
      Evaluates c id mask (.error .invalidOperator)
  | unary {id t : Id .expressions} {mask : Mask} {o : UnaryOperator}
      {r : Except EvaluationError Value} (hget : c.get? id = some (.unary o t)) (ho : o ≠ .invalid)
      (ht : Evaluates c t o.operandMask r) :
      Evaluates c id mask (r >>= o.apply >>= restrict mask)
  | invalidBinary {id t u : Id .expressions} {mask : Mask}
      (hget : c.get? id = some (.binary .invalid t u)) :
      Evaluates c id mask (.error .invalidOperator)
  | left {id t u : Id .expressions} {mask : Mask} {o : BinaryOperator} {e : EvaluationError}
      (hget : c.get? id = some (.binary o t u)) (ho : o ≠ .invalid)
      (ht : Evaluates c t o.operandMask (.error e)) : Evaluates c id mask (.error e)
  | shortcut {id t u : Id .expressions} {mask : Mask} {o : BinaryOperator} {v : Value} {b : Bool}
      (hget : c.get? id = some (.binary o t u)) (ho : o ≠ .invalid)
      (ht : Evaluates c t o.operandMask (.ok v)) (hshort : o.shortcut? v.isTrue = some b) :
      Evaluates c id mask (restrict mask (.bool b))
  | binary {id t u : Id .expressions} {mask : Mask} {o : BinaryOperator} {v : Value}
      {r : Except EvaluationError Value} (hget : c.get? id = some (.binary o t u))
      (ho : o ≠ .invalid) (ht : Evaluates c t o.operandMask (.ok v))
      (hshort : o.shortcut? v.isTrue = none) (hu : Evaluates c u o.operandMask r) :
      Evaluates c id mask (r >>= o.apply v >>= restrict mask)

/-- The evaluation of the first expression goes on with the second one, as an operand or
by its name. A right operand is one of these only if the left one has a value that
leaves the answer open. -/
inductive Follows (c : Catalog) : Id .expressions → Id .expressions → Prop
  | name {id target : Id .expressions} {n : String} (hget : c.get? id = some (.literal (.name n)))
      (hd : c.definition n = .ok target) : Follows c id target
  | operand {id t : Id .expressions} {o : UnaryOperator} (hget : c.get? id = some (.unary o t))
      (ho : o ≠ .invalid) : Follows c id t
  | left {id t u : Id .expressions} {o : BinaryOperator} (hget : c.get? id = some (.binary o t u))
      (ho : o ≠ .invalid) : Follows c id t
  | right {id t u : Id .expressions} {o : BinaryOperator} {v : Value}
      (hget : c.get? id = some (.binary o t u)) (ho : o ≠ .invalid)
      (ht : c.Evaluates t o.operandMask (.ok v)) (hshort : o.shortcut? v.isTrue = none) :
      Follows c id u

/-- A chain of operands and names that the evaluation of an expression follows into each other, the
outermost first. The expression that is asked for is not one of them. -/
def Nests (c : Catalog) (id : Id .expressions) (chain : List (Id .expressions)) : Prop :=
  (id :: chain).IsChain c.Follows

theorem Nests.nil (c : Catalog) (id : Id .expressions) : c.Nests id [] :=
  .singleton id

theorem nests_cons_iff {id next : Id .expressions} {chain : List (Id .expressions)} :
    c.Nests id (next :: chain) ↔ c.Follows id next ∧ c.Nests next chain :=
  List.isChain_cons_cons

theorem evaluateWithin_missing {id : Id .expressions} (hget : c.get? id = none) (limit : Nat)
    (mask : Mask) : c.evaluateWithin (limit + 1) id mask = .error .invalidHandle := by
  unfold evaluateWithin
  simp only [hget]

/-- An answer other than that of the limit is the one that there is without a limit. -/
theorem evaluates_of_evaluateWithin {limit : Nat} {id : Id .expressions} {mask : Mask}
    (hne : c.evaluateWithin limit id mask ≠ .error .tooDeep) :
    c.Evaluates id mask (c.evaluateWithin limit id mask) := by
  induction limit generalizing id mask with
  | zero => exact absurd rfl hne
  | succ limit ih =>
    cases hget : c.get? id with
    | none => rw [evaluateWithin_missing hget]; exact .missing hget
    | some r =>
      rw [evaluateWithin_succ limit hget] at hne ⊢
      have hnode : c.nodeValue limit mask r ≠ .error .tooDeep := fun h =>
        hne ((bind_eq_outer (failsInside_restrict mask) tooDeep_isOuter).mpr h)
      cases r with
      | literal l =>
        cases l with
        | value v => exact .value hget
        | name n =>
          simp only [nodeValue] at hnode ⊢
          cases hd : c.definition n with
          | error e => exact .undefined hget hd
          | ok target =>
            rw [hd] at hnode
            exact .name hget hd (ih hnode)
      | unary o t =>
        simp only [nodeValue] at hnode ⊢
        by_cases ho : o = .invalid
        · subst ho
          exact .invalidUnary hget
        · rw [if_neg ho] at hnode ⊢
          exact .unary hget ho
            (ih fun h => hnode ((bind_eq_outer o.failsInside tooDeep_isOuter).mpr h))
      | binary o t u =>
        simp only [nodeValue] at hnode ⊢
        by_cases ho : o = .invalid
        · subst ho
          exact .invalidBinary hget
        · rw [if_neg ho] at hnode ⊢
          have ht : c.Evaluates t o.operandMask (c.evaluateWithin limit t o.operandMask) :=
            ih fun h => hnode (by rw [h]; rfl)
          cases hv : c.evaluateWithin limit t o.operandMask with
          | error e => exact .left hget ho (hv ▸ ht)
          | ok v =>
            rw [hv] at ht hnode
            simp only [bind, Except.bind] at hnode ⊢
            cases hshort : o.shortcut? v.isTrue with
            | some b => exact .shortcut hget ho ht hshort
            | none =>
              rw [hshort] at hnode
              refine .binary hget ho ht hshort (ih fun h => hnode ?_)
              dsimp only
              rw [h]

/-- The answer of an evaluation with a limit: the limit is reached exactly if it is below the
depth. -/
def Settles (c : Catalog) (depth : Nat) (id : Id .expressions) (mask : Mask)
    (r : Except EvaluationError Value) : Prop :=
  ∀ limit, c.evaluateWithin limit id mask = if depth ≤ limit then r else .error .tooDeep

theorem settles_succ {depth : Nat} {id : Id .expressions} {mask : Mask}
    {r : Except EvaluationError Value}
    (h : ∀ limit, c.evaluateWithin (limit + 1) id mask =
      if depth ≤ limit then r else .error .tooDeep) :
    c.Settles (depth + 1) id mask r := by
  intro limit
  cases limit with
  | zero => rw [if_neg (by omega)]; rfl
  | succ limit => rw [h limit]; simp only [Nat.add_le_add_iff_right]

theorem bind_settles {α β : Type} {depth limit : Nat} {r : Except EvaluationError α}
    (f : α → Except EvaluationError β) :
    (if depth ≤ limit then r else .error .tooDeep) >>= f =
      if depth ≤ limit then r >>= f else .error .tooDeep := by
  split <;> rfl

/-- Without a limit, an expression has a depth up to which it is evaluated. -/
theorem Evaluates.settles {id : Id .expressions} {mask : Mask} {r : Except EvaluationError Value}
    (h : c.Evaluates id mask r) : r ≠ .error .tooDeep ∧ ∃ depth, c.Settles depth id mask r := by
  induction h with
  | missing hget =>
    refine ⟨by simp, 1, settles_succ fun limit => ?_⟩
    rw [evaluateWithin_missing hget, if_pos (Nat.zero_le _)]
  | @value id mask v hget =>
    refine ⟨fun h => failsInside_restrict mask v _ h trivial, 1, settles_succ fun limit => ?_⟩
    rw [evaluateWithin_succ limit hget, if_pos (Nat.zero_le _)]
    rfl
  | @undefined id mask n e hget hd =>
    refine ⟨fun h => failsInside_definition c n e hd (by cases h; trivial), 1,
      settles_succ fun limit => ?_⟩
    rw [evaluateWithin_succ limit hget, if_pos (Nat.zero_le _), nodeValue, hd]
    rfl
  | @name id target mask n r hget hd _ ih =>
    obtain ⟨hne, depth, hsettles⟩ := ih
    refine ⟨fun h => hne ((bind_eq_outer (failsInside_restrict mask) tooDeep_isOuter).mp h),
      depth + 1, settles_succ fun limit => ?_⟩
    rw [evaluateWithin_succ limit hget, nodeValue, Except.bind_of_eq_ok hd, hsettles limit,
      bind_settles]
  | @invalidUnary id t mask hget =>
    refine ⟨by simp, 1, settles_succ fun limit => ?_⟩
    rw [evaluateWithin_succ limit hget, if_pos (Nat.zero_le _)]
    rfl
  | @unary id t mask o r hget ho _ ih =>
    obtain ⟨hne, depth, hsettles⟩ := ih
    refine ⟨fun h => hne ?_, depth + 1, settles_succ fun limit => ?_⟩
    · have hvalue := (bind_eq_outer (failsInside_restrict mask) tooDeep_isOuter).mp h
      exact (bind_eq_outer o.failsInside tooDeep_isOuter).mp hvalue
    · rw [evaluateWithin_succ limit hget, nodeValue, if_neg ho, hsettles limit, bind_settles,
        bind_settles]
  | @invalidBinary id t u mask hget =>
    refine ⟨by simp, 1, settles_succ fun limit => ?_⟩
    rw [evaluateWithin_succ limit hget, if_pos (Nat.zero_le _)]
    rfl
  | @left id t u mask o e hget ho _ ih =>
    obtain ⟨hne, depth, hsettles⟩ := ih
    refine ⟨fun h => hne (by cases h; rfl), depth + 1, settles_succ fun limit => ?_⟩
    rw [evaluateWithin_succ limit hget, nodeValue, if_neg ho, hsettles limit, bind_settles,
      bind_settles]
    rfl
  | @shortcut id t u mask o v b hget ho _ hshort ih =>
    obtain ⟨-, depth, hsettles⟩ := ih
    refine ⟨fun h => failsInside_restrict mask _ _ h trivial, depth + 1,
      settles_succ fun limit => ?_⟩
    rw [evaluateWithin_succ limit hget, nodeValue, if_neg ho, hsettles limit, bind_settles,
      bind_settles, Except.bind_of_eq_ok rfl]
    simp only [hshort]
    rfl
  | @binary id t u mask o v r hget ho _ hshort _ iht ihu =>
    obtain ⟨-, left, hleft⟩ := iht
    obtain ⟨hne, right, hright⟩ := ihu
    refine ⟨fun h => hne ?_, max left right + 1, settles_succ fun limit => ?_⟩
    · have hvalue := (bind_eq_outer (failsInside_restrict mask) tooDeep_isOuter).mp h
      exact (bind_eq_outer (o.failsInside v) tooDeep_isOuter).mp hvalue
    · rw [evaluateWithin_succ limit hget, nodeValue, if_neg ho, hleft limit, bind_settles,
        bind_settles, Except.bind_of_eq_ok rfl]
      simp only [hshort, hright limit]
      rw [bind_settles, bind_settles]
      by_cases hl : left ≤ limit
      · simp [hl]
      · simp [hl]

/-- An evaluation is cut off in an operand or in what a name stands for. -/
theorem follows_of_tooDeep {limit : Nat} {id : Id .expressions} {mask : Mask}
    (h : c.evaluateWithin (limit + 1) id mask = .error .tooDeep) :
    ∃ next, c.Follows id next ∧ ∃ mask', c.evaluateWithin limit next mask' = .error .tooDeep := by
  cases hget : c.get? id with
  | none => rw [evaluateWithin_missing hget] at h; cases h
  | some r =>
    rw [evaluateWithin_succ limit hget,
      bind_eq_outer (failsInside_restrict mask) tooDeep_isOuter] at h
    cases r with
    | literal l =>
      cases l with
      | value v => cases h
      | name n =>
        simp only [nodeValue] at h
        cases hd : c.definition n with
        | error e =>
          exact absurd (by rw [hd] at h; cases h; trivial) (failsInside_definition c n e hd)
        | ok target => exact ⟨target, .name hget hd, mask, by rwa [hd] at h⟩
    | unary o t =>
      simp only [nodeValue] at h
      split at h
      next => cases h
      next ho =>
        exact ⟨t, .operand hget ho, o.operandMask,
          (bind_eq_outer o.failsInside tooDeep_isOuter).mp h⟩
    | binary o t u =>
      simp only [nodeValue] at h
      split at h
      next => cases h
      next ho =>
        cases hv : c.evaluateWithin limit t o.operandMask with
        | error e => exact ⟨t, .left hget ho, o.operandMask, by rw [hv] at h ⊢; cases h; rfl⟩
        | ok v =>
          rw [hv, Except.bind_of_eq_ok rfl] at h
          cases hshort : o.shortcut? v.isTrue with
          | some b => rw [hshort] at h; cases h
          | none =>
            rw [hshort] at h
            have ht : c.Evaluates t o.operandMask (.ok v) :=
              hv ▸ evaluates_of_evaluateWithin (by rw [hv]; simp)
            exact ⟨u, .right hget ho ht hshort, o.operandMask,
              (bind_eq_outer (o.failsInside v) tooDeep_isOuter).mp h⟩

theorem Evaluates.evaluateWithin {id : Id .expressions} {mask : Mask}
    {r : Except EvaluationError Value} (h : c.Evaluates id mask r) (limit : Nat) :
    c.evaluateWithin limit id mask = .error .tooDeep ∨ c.evaluateWithin limit id mask = r := by
  obtain ⟨-, depth, hsettles⟩ := h.settles
  rw [hsettles limit]
  split
  next => exact .inr rfl
  next => exact .inl rfl

theorem Follows.tooDeep {id next : Id .expressions} (h : c.Follows id next) {limit : Nat}
    (hnext : ∀ mask, c.evaluateWithin limit next mask = .error .tooDeep) (mask : Mask) :
    c.evaluateWithin (limit + 1) id mask = .error .tooDeep := by
  cases h with
  | name hget hd =>
    rw [evaluateWithin_succ limit hget, nodeValue, Except.bind_of_eq_ok hd, hnext]
    rfl
  | operand hget ho =>
    rw [evaluateWithin_succ limit hget, nodeValue, if_neg ho, hnext]
    rfl
  | left hget ho =>
    rw [evaluateWithin_succ limit hget, nodeValue, if_neg ho, hnext]
    rfl
  | right hget ho ht hshort =>
    rw [evaluateWithin_succ limit hget, nodeValue, if_neg ho]
    rcases ht.evaluateWithin limit with hcut | hleft
    · rw [hcut]
      rfl
    · rw [hleft, Except.bind_of_eq_ok rfl]
      simp only [hshort, hnext]
      rfl

/-- An evaluation is cut off exactly if it follows as many operands and names into each other as the
limit counts, since the limit counts the expression that is asked for as well. -/
theorem evaluateWithin_eq_tooDeep {limit : Nat} {id : Id .expressions} {mask : Mask} :
    c.evaluateWithin limit id mask = .error .tooDeep ↔
      ∃ chain, c.Nests id chain ∧ limit ≤ chain.length := by
  constructor
  · intro h
    induction limit generalizing id mask with
    | zero => exact ⟨[], .nil c id, Nat.le_refl 0⟩
    | succ limit ih =>
      obtain ⟨next, hfollows, mask', hnext⟩ := follows_of_tooDeep h
      obtain ⟨chain, hchain, hlength⟩ := ih hnext
      exact ⟨next :: chain, nests_cons_iff.mpr ⟨hfollows, hchain⟩, Nat.succ_le_succ hlength⟩
  · rintro ⟨chain, hchain, hlength⟩
    induction limit generalizing id mask chain with
    | zero => rfl
    | succ limit ih =>
      match chain with
      | [] => simp at hlength
      | next :: rest =>
        obtain ⟨hfollows, hrest⟩ := nests_cons_iff.mp hchain
        exact hfollows.tooDeep (fun _ => ih rest hrest (Nat.le_of_succ_le_succ hlength)) mask

/-- There are chains of any length to what needs its own value. -/
theorem exists_nests_of_reenters {id e : Id .expressions}
    (hreach : Relation.ReflTransGen c.Follows id e) (hagain : Relation.TransGen c.Follows e e)
    (length : Nat) : ∃ chain, c.Nests id chain ∧ length ≤ chain.length := by
  induction length generalizing id with
  | zero => exact ⟨[], .nil c id, Nat.le_refl 0⟩
  | succ length ih =>
    -- What reaches `e` goes on to something that reaches it.
    have hto : Relation.TransGen c.Follows id e := .trans_right hreach hagain
    obtain ⟨next, hfollows, hnext⟩ := Relation.TransGen.head'_iff.mp hto
    obtain ⟨chain, hchain, hlength⟩ := ih hnext
    exact ⟨next :: chain, nests_cons_iff.mpr ⟨hfollows, hchain⟩, Nat.succ_le_succ hlength⟩

/-- A limit takes answers away and gives no other ones. It is reached exactly if that many operands
and names are followed into each other, so the answer is the one without a limit if there are fewer
of them in every chain. What needs its own value has no value. -/
theorem evaluateWithin_cutoff (c : Catalog) (id : Id .expressions) (mask : Mask) :
    (∀ m n, m ≤ n → c.evaluateWithin m id mask = .error .tooDeep ∨
      c.evaluateWithin m id mask = c.evaluateWithin n id mask) ∧
    (∀ n, c.evaluateWithin n id mask = .error .tooDeep ↔
      ∃ chain, c.Nests id chain ∧ n ≤ chain.length) ∧
    (∀ r, c.Evaluates id mask r ↔ r ≠ .error .tooDeep ∧ ∃ n, c.evaluateWithin n id mask = r) ∧
    ((∀ chain, c.Nests id chain → chain.length < maximumDepth) →
      c.Evaluates id mask (c.evaluate id mask)) ∧
    (∀ e, Relation.ReflTransGen c.Follows id e → Relation.TransGen c.Follows e e →
      (∀ r, ¬ c.Evaluates id mask r) ∧ c.evaluate id mask = .error .tooDeep) := by
  refine ⟨fun m n hle => ?_, fun n => evaluateWithin_eq_tooDeep, fun r => ⟨fun h => ?_, ?_⟩,
    fun hshort => ?_, fun e hreach hagain => ?_⟩
  · refine or_iff_not_imp_left.mpr fun hne => ?_
    obtain ⟨-, depth, hsettles⟩ := (evaluates_of_evaluateWithin hne).settles
    have hdepth : depth ≤ m := by
      by_contra hlt
      exact hne (by rw [hsettles m, if_neg hlt])
    rw [hsettles n, if_pos (Nat.le_trans hdepth hle)]
  · obtain ⟨hne, depth, hsettles⟩ := h.settles
    exact ⟨hne, depth, by rw [hsettles depth, if_pos (Nat.le_refl depth)]⟩
  · rintro ⟨hne, n, rfl⟩
    exact evaluates_of_evaluateWithin hne
  · refine evaluates_of_evaluateWithin fun hcut => ?_
    obtain ⟨chain, hchain, hlength⟩ := evaluateWithin_eq_tooDeep.mp hcut
    exact absurd (hshort chain hchain) (Nat.not_lt_of_le hlength)
  · have hcut (n : Nat) : c.evaluateWithin n id mask = .error .tooDeep :=
      evaluateWithin_eq_tooDeep.mpr (exists_nests_of_reenters hreach hagain n)
    refine ⟨fun r hr => ?_, hcut maximumDepth⟩
    obtain ⟨hne, depth, hsettles⟩ := hr.settles
    exact hne ((hsettles depth).symm.trans (hcut depth) ▸ (if_pos (Nat.le_refl depth)).symm)

/-- The complement of one, so many times. -/
def complementValue : Nat → Integer
  | 0 => ⟨.int, 1, by decide⟩
  | i + 1 => (complementValue i).complement

/-- An expression of a row. The first one is a literal, and each other one is the complement of
the one before it. -/
def complementAt : Nat → ExpressionRecord
  | 0 => .literal (.value (.integer (complementValue 0)))
  | i + 1 => .unary .bitNot ⟨i, 0⟩

def complementCatalog (n : Nat) : Catalog where
  store := {
    expressions :=
      ⟨((List.range (n + 1)).map fun i => ⟨0, some (complementAt i)⟩).toArray, [], n + 1⟩ }

theorem get?_complementAt {n i : Nat} (hi : i ≤ n) :
    (complementCatalog n).get? (t := .expressions) ⟨i, 0⟩ = some (complementAt i) := by
  have hslot : i < n + 1 := Nat.lt_succ_of_le hi
  simp [get?, Store.get?, Store.arena, Arena.get?, complementCatalog, hslot]

theorem follows_complementAt_iff {n i : Nat} (hi : i ≤ n) {next : Id .expressions} :
    (complementCatalog n).Follows ⟨i, 0⟩ next ↔ ∃ j, i = j + 1 ∧ next = ⟨j, 0⟩ := by
  have hget := get?_complementAt hi
  constructor
  · intro h
    cases i with
    | zero => cases h <;> simp_all [complementAt]
    | succ j => cases h <;> simp_all [complementAt]
  · rintro ⟨j, rfl, rfl⟩
    exact .operand hget (by decide)

/-- An expression of the row is evaluated with all of those before it, and with no other ones. -/
theorem nests_complementAt {n i : Nat} (hi : i ≤ n) :
    (∃ chain, (complementCatalog n).Nests ⟨i, 0⟩ chain ∧ chain.length = i) ∧
      ∀ chain, (complementCatalog n).Nests ⟨i, 0⟩ chain → chain.length ≤ i := by
  induction i with
  | zero =>
    refine ⟨⟨[], .nil _ _, rfl⟩, fun chain hchain => ?_⟩
    match chain with
    | [] => exact Nat.le_refl 0
    | next :: rest =>
      obtain ⟨j, hj, -⟩ := (follows_complementAt_iff hi).mp (nests_cons_iff.mp hchain).1
      cases hj
  | succ i ih =>
    obtain ⟨⟨rest, hrest, hlength⟩, hlongest⟩ := ih (Nat.le_of_succ_le hi)
    have hfollows := (follows_complementAt_iff hi).mpr ⟨i, rfl, rfl⟩
    refine ⟨⟨_, nests_cons_iff.mpr ⟨hfollows, hrest⟩, congrArg (· + 1) hlength⟩,
      fun chain hchain => ?_⟩
    match chain with
    | [] => exact Nat.zero_le _
    | next :: rest =>
      obtain ⟨hnext, hrest⟩ := nests_cons_iff.mp hchain
      obtain ⟨j, hj, rfl⟩ := (follows_complementAt_iff hi).mp hnext
      cases hj
      exact Nat.succ_le_succ (hlongest rest hrest)

theorem restrict_complementValue {mask : Mask} (hmask : mask.intersects (Kind.integer .int).mask)
    (i : Nat) :
    restrict mask (.integer (complementValue i)) = .ok (.integer (complementValue i)) := by
  have hkind : (complementValue i).kind = .int := by
    induction i with
    | zero => rfl
    | succ i ih => exact ih
  simp [restrict, Value.kind, hkind, hmask]

/-- Without a limit, every expression of the row has a value. -/
theorem evaluates_complementAt {n i : Nat} (hi : i ≤ n) {mask : Mask}
    (hmask : mask.intersects (Kind.integer .int).mask) :
    (complementCatalog n).Evaluates ⟨i, 0⟩ mask (.ok (.integer (complementValue i))) := by
  induction i generalizing mask with
  | zero => exact restrict_complementValue hmask 0 ▸ .value (get?_complementAt hi)
  | succ i ih =>
    have hoperand : (complementCatalog n).Evaluates ⟨i, 0⟩ UnaryOperator.bitNot.operandMask
        (.ok (.integer (complementValue i))) := ih (Nat.le_of_succ_le hi) (by decide)
    exact restrict_complementValue hmask (i + 1) ▸
      .unary (get?_complementAt hi) (by decide) hoperand

end Catalog

namespace Database

open Catalog

def circularDatabase : Database :=
  let int : TypeSource := .named "int" ⟨false, false, false⟩ none []
  { cyclicDatabase with
    reader := fun _ _ =>
      .ok {
        declaredClass := some { name := "A" }
        constants := [{ name := "C", type := int, value := some "1 || D" },
          { name := "D", type := int, value := some "C && D" }] } }

def circularParsed : Database :=
  (circularDatabase.parse cyclicDisk "a.eo").2

theorem circularParsed_reachable : circularParsed.Reachable :=
  .parse cyclicDisk "a.eo" (scanned_reachable _)

/-- The first constant does not need the second one, which needs itself. A row that is shorter
than the limit is evaluated as without it. -/
theorem evaluateWithin_circular :
    circularParsed.catalog.Evaluates ⟨2, 0⟩ .all (.ok (.bool true)) ∧
      circularParsed.catalog.evaluate ⟨5, 0⟩ .all = .error .tooDeep ∧
      (complementCatalog 255).Evaluates ⟨255, 0⟩ .all
        ((complementCatalog 255).evaluate ⟨255, 0⟩ .all) := by
  have hcutoff := circularParsed.catalog.evaluateWithin_cutoff
  have hboth : circularParsed.catalog.get? (t := .expressions) ⟨5, 0⟩ =
      some (.binary .and ⟨3, 0⟩ ⟨4, 0⟩) := by decide +kernel
  have hname : circularParsed.catalog.get? (t := .expressions) ⟨4, 0⟩ =
      some (.literal (.name "D")) := by
    decide +kernel
  have htarget : circularParsed.catalog.definition "D" = .ok ⟨5, 0⟩ := by decide +kernel
  have hleft : circularParsed.catalog.Evaluates ⟨3, 0⟩ .truth (.ok (.bool true)) :=
    ((hcutoff ⟨3, 0⟩ .truth).2.2.1 _).mpr ⟨by decide, 3, by decide +kernel⟩
  have hagain : Relation.TransGen circularParsed.catalog.Follows ⟨5, 0⟩ ⟨5, 0⟩ :=
    .tail (.single (.right hboth (by decide) hleft rfl)) (.name hname htarget)
  have hshort : ∀ chain, (complementCatalog 255).Nests ⟨255, 0⟩ chain →
      chain.length < maximumDepth := fun chain hchain =>
    Nat.lt_succ_of_le ((nests_complementAt (Nat.le_refl 255)).2 chain hchain)
  refine ⟨((hcutoff ⟨2, 0⟩ .all).2.2.1 _).mpr ⟨by decide, 2, by decide +kernel⟩, ?_, ?_⟩
  · exact ((hcutoff ⟨5, 0⟩ .all).2.2.2.2 ⟨5, 0⟩ .refl hagain).2
  · exact ((complementCatalog 255).evaluateWithin_cutoff ⟨255, 0⟩ .all).2.2.2.1 hshort

/-- The first literal of a file follows nothing and is refused if nothing may be followed. Nor is
an expression evaluated that follows as many operands as the limit is. -/
theorem evaluate_misses_limit :
    (circularParsed.Reachable ∧
      (∀ chain, circularParsed.catalog.Nests ⟨0, 0⟩ chain → chain.length ≤ 0) ∧
      circularParsed.catalog.evaluateWithin 0 ⟨0, 0⟩ .all = .error .tooDeep) ∧
    (∀ chain, (complementCatalog 256).Nests ⟨256, 0⟩ chain → chain.length ≤ maximumDepth) ∧
    (complementCatalog 256).Evaluates ⟨256, 0⟩ .all (.ok (.integer (complementValue 0))) ∧
    (complementCatalog 256).evaluate ⟨256, 0⟩ .all = .error .tooDeep := by
  have hliteral : circularParsed.catalog.get? (t := .expressions) ⟨0, 0⟩ =
      some (.literal (.value (.integer (complementValue 0)))) := by decide +kernel
  have hnothing : ∀ chain, circularParsed.catalog.Nests ⟨0, 0⟩ chain → chain.length ≤ 0 := by
    intro chain hchain
    match chain with
    | [] => exact Nat.le_refl 0
    | next :: rest =>
      cases (nests_cons_iff.mp hchain).1 <;> simp_all
  obtain ⟨⟨chain, hchain, hlength⟩, hlongest⟩ := nests_complementAt (Nat.le_refl 256)
  have hback : complementValue 256 = complementValue 0 := by decide +kernel
  exact ⟨⟨circularParsed_reachable, hnothing, rfl⟩, hlongest,
    hback ▸ evaluates_complementAt (Nat.le_refl 256) (by decide),
    evaluateWithin_eq_tooDeep.mpr ⟨chain, hchain, Nat.le_of_eq hlength.symm⟩⟩

end Database

end InterfaceCatalog
