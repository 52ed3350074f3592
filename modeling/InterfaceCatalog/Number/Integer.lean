namespace InterfaceCatalog

inductive IntegerKind where
  | int | uint | long | ulong | llong | ullong
  deriving DecidableEq

def IntegerKind.isSigned : IntegerKind → Bool
  | .int | .long | .llong => true
  | .uint | .ulong | .ullong => false

def IntegerKind.width : IntegerKind → Nat
  | .int | .uint => 32
  | .long | .ulong | .llong | .ullong => 64

def IntegerKind.size (k : IntegerKind) : Nat :=
  Nat.pow 2 k.width

theorem IntegerKind.size_pos (k : IntegerKind) : 0 < k.size := by
  cases k <;> decide

def IntegerKind.least (k : IntegerKind) : Int :=
  if k.isSigned then -(k.size / 2 : Nat) else 0

def IntegerKind.greatest (k : IntegerKind) : Int :=
  k.least + k.size - 1

example : IntegerKind.int.least = -2147483648 ∧ IntegerKind.int.greatest = 2147483647 ∧
    IntegerKind.uint.least = 0 ∧ IntegerKind.uint.greatest = 4294967295 := by decide

def IntegerKind.rank : IntegerKind → Nat
  | .int => 0
  | .uint => 1
  | .long => 2
  | .ulong => 3
  | .llong => 4
  | .ullong => 5

def IntegerKind.suffix : IntegerKind → String
  | .int => ""
  | .uint => "U"
  | .long => "L"
  | .ulong => "UL"
  | .llong => "LL"
  | .ullong => "ULL"

def IntegerKind.promote (k l : IntegerKind) : IntegerKind :=
  if l.rank ≤ k.rank then k else l

def IntegerKind.Holds (k : IntegerKind) (n : Int) : Prop :=
  k.least ≤ n ∧ n ≤ k.greatest

instance (k : IntegerKind) (n : Int) : Decidable (k.Holds n) :=
  inferInstanceAs (Decidable (_ ∧ _))

structure Integer where
  kind : IntegerKind
  val : Int
  holds : kind.Holds val
  deriving DecidableEq

def Integer.of? (k : IntegerKind) (n : Int) : Option Integer :=
  if h : k.Holds n then some ⟨k, n, h⟩ else none

theorem Integer.of?_eq_some_iff {k : IntegerKind} {n : Int} {i : Integer} :
    Integer.of? k n = some i ↔ i.kind = k ∧ i.val = n := by
  constructor
  · intro h
    unfold Integer.of? at h
    split at h
    · cases h
      exact ⟨rfl, rfl⟩
    · simp at h
  · rintro ⟨rfl, rfl⟩
    simp [Integer.of?, i.holds]

theorem Integer.of?_eq_none_iff {k : IntegerKind} {n : Int} :
    Integer.of? k n = none ↔ ¬ k.Holds n := by
  simp [Integer.of?]

/-- The member of kind `k` that differs from `n` by a multiple of the number of its members. -/
def Integer.wrap (k : IntegerKind) (n : Int) : Integer :=
  ⟨k, k.least + (n - k.least) % k.size, by
    have positive := k.size_pos
    have low := Int.emod_nonneg (n - k.least) (b := k.size) (by omega)
    have high := Int.emod_lt_of_pos (n - k.least) (b := k.size) (by omega)
    unfold IntegerKind.Holds IntegerKind.greatest
    omega⟩

def Integer.complement (i : Integer) : Integer :=
  ⟨i.kind, i.kind.least + i.kind.greatest - i.val, by
    have h := i.holds
    unfold IntegerKind.Holds at h ⊢
    omega⟩

def Integer.text (i : Integer) : String :=
  toString i.val ++ i.kind.suffix

/-- A word in two's complement that is wide enough to compute with integers of all kinds. -/
abbrev Wide := BitVec 128

def Integer.wide (i : Integer) : Wide :=
  .ofInt 128 i.val

end InterfaceCatalog
