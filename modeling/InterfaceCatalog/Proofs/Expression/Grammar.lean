import InterfaceCatalog.Expression.Token
import Mathlib.Data.List.Chain
import Mathlib.Tactic.IntervalCases

namespace InterfaceCatalog

/-- The binary operators by level, the loosest ones first. -/
def operatorLevels : List (List BinaryOperator) :=
  [[.or], [.and], [.bitOr], [.bitXor], [.bitAnd], [.equal, .unequal],
    [.greater, .less, .greaterEqual, .lessEqual], [.shiftLeft, .shiftRight], [.add, .sub],
    [.mul, .div, .mod]]

def prefixOperators : List UnaryOperator :=
  [.minus, .plus, .not, .bitNot]

abbrev prefixLevel : Nat := 10

abbrev primaryLevel : Nat := 11

/-- A row of tokens is an expression of a level and has a tree. -/
inductive Derives : Nat → List Token → Tree → Prop
  | literal (l : Literal) : Derives primaryLevel [.literal l] (.literal l)
  | parens {ts : List Token} {t : Tree} (h : Derives 0 ts t) :
      Derives primaryLevel (.opening :: (ts ++ [.closing])) t
  | prefixed {tok : Token} {o : UnaryOperator} {ts : List Token} {t : Tree}
      (ho : o ∈ prefixOperators) (htok : tok.prefix? = some o) (h : Derives prefixLevel ts t) :
      Derives prefixLevel (tok :: ts) (.unary o t)
  | binary {level : Nat} {os : List BinaryOperator} {tok : Token} {o : BinaryOperator}
      {ts us : List Token} {t u : Tree} (hos : operatorLevels[level]? = some os) (ho : o ∈ os)
      (htok : tok.binary? = some o) (ht : Derives level ts t) (hu : Derives (level + 1) us u) :
      Derives level (ts ++ tok :: us) (.binary o t u)
  | tighter {level : Nat} {ts : List Token} {t : Tree} (h : Derives (level + 1) ts t) :
      Derives level ts t

theorem level?_eq_some_iff {o : BinaryOperator} {level : Nat} :
    o.level? = some level ↔ ∃ os, operatorLevels[level]? = some os ∧ o ∈ os := by
  constructor
  · intro h
    cases o <;> cases h <;> exact ⟨_, rfl, by decide⟩
  · rintro ⟨os, hos, ho⟩
    have hlevel : level < 10 := (List.getElem?_eq_some_iff.mp hos).1
    interval_cases level <;> cases hos <;> revert ho <;> revert o <;> decide

theorem level?_lt {o : BinaryOperator} {level : Nat} (h : o.level? = some level) :
    level < prefixLevel := by
  obtain ⟨os, hos, -⟩ := level?_eq_some_iff.mp h
  exact (List.getElem?_eq_some_iff.mp hos).1

namespace Derives

variable {level : Nat} {ts : List Token} {t : Tree}

theorem length_pos (h : Derives level ts t) : 0 < ts.length := by
  induction h with
  | literal l => simp
  | parens h ih => simp
  | prefixed ho htok h ih => simp
  | binary hos ho htok ht hu iht ihu => simp
  | tighter h ih => exact ih

theorem of_le {loose : Nat} (h : Derives level ts t) (hle : loose ≤ level) :
    Derives loose ts t := by
  induction level with
  | zero =>
    have hzero : loose = 0 := by omega
    exact hzero ▸ h
  | succ n ih =>
    by_cases heq : loose = n + 1
    · exact heq ▸ h
    · exact ih h.tighter (by omega)

end Derives

/-- No token of a text is the invalid prefix operator. -/
def Token.Real (t : Token) : Prop :=
  t.prefix? ≠ some .invalid

theorem Token.Real.mem_prefixOperators {t : Token} {o : UnaryOperator} (h : t.Real)
    (ho : t.prefix? = some o) : o ∈ prefixOperators := by
  cases o with
  | invalid => exact absurd ho h
  | minus | plus | not | bitNot => decide

def Token.IsLiteral : Token → Prop
  | .literal _ => True
  | _ => False

/-- Two tokens that may stand side by side: not both are literals. -/
def Token.Beside (t u : Token) : Prop :=
  ¬ (t.IsLiteral ∧ u.IsLiteral)

theorem Token.not_isLiteral_of_binary? {t : Token} {o : BinaryOperator} (h : t.binary? = some o) :
    ¬ t.IsLiteral := by
  cases t <;> simp [Token.binary?, Token.IsLiteral] at h ⊢

theorem Token.not_isLiteral_of_prefix? {t : Token} {o : UnaryOperator} (h : t.prefix? = some o) :
    ¬ t.IsLiteral := by
  cases t <;> simp [Token.prefix?, Token.IsLiteral] at h ⊢

/-- No expression has two literals side by side. -/
theorem Derives.beside {level : Nat} {ts : List Token} {t : Tree} (h : Derives level ts t) :
    ts.IsChain Token.Beside := by
  have left : ∀ {t u : Token}, ¬ t.IsLiteral → t.Beside u := fun ht h => ht h.1
  have right : ∀ {t u : Token}, ¬ u.IsLiteral → t.Beside u := fun hu h => hu h.2
  induction h with
  | literal l => simp
  | @parens ts t h ih =>
    have hinner : (ts ++ [Token.closing]).IsChain Token.Beside := by
      refine List.isChain_append.mpr ⟨ih, List.isChain_singleton _, fun x _ y hy => ?_⟩
      have hy : y = .closing := by simpa using hy.symm
      exact right (hy ▸ fun h => h)
    refine List.isChain_cons.mpr ⟨fun y _ => left fun h => h, hinner⟩
  | prefixed ho htok h ih =>
    exact List.isChain_cons.mpr ⟨fun y _ => left (Token.not_isLiteral_of_prefix? htok), ih⟩
  | @binary level os tok o ts us t u hos ho htok ht hu iht ihu =>
    have htok := Token.not_isLiteral_of_binary? htok
    refine List.isChain_append.mpr ⟨iht, ?_, fun x _ y hy => ?_⟩
    · exact List.isChain_cons.mpr ⟨fun y _ => left htok, ihu⟩
    · have hy : y = tok := by simpa using hy.symm
      exact right (hy ▸ htok)
  | tighter h ih => exact ih

end InterfaceCatalog
