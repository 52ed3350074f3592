import InterfaceCatalog.Proofs.Text.Character
import Mathlib.Algebra.Group.Nat.Defs

namespace InterfaceCatalog

theorem isAsciiDigit_of_mem_toDigits {n : Nat} {c : Char} (h : c ∈ Nat.toDigits 10 n) :
    isAsciiDigit c := by
  have hdigit := Char.isDigit_iff_toNat.mp (Nat.isDigit_of_mem_toDigits (by decide) (by decide) h)
  exact isAsciiDigit_iff.mpr hdigit

theorem ofDigits_append (l m : List Char) :
    ofDigits 10 (l ++ m) = ofDigits 10 l * 10 ^ m.length + ofDigits 10 m := by
  have hfold : ∀ (m : List Char) (n : Nat), m.foldl (fun n c => 10 * n + digitValue c) n =
      n * 10 ^ m.length + m.foldl (fun n c => 10 * n + digitValue c) 0 := by
    intro m
    induction m with
    | nil => simp
    | cons c m ih =>
      intro n
      rw [List.foldl_cons, List.foldl_cons, ih, ih (10 * 0 + digitValue c), List.length_cons,
        Nat.pow_succ, Nat.add_mul, Nat.add_mul, Nat.mul_zero, Nat.zero_mul, Nat.zero_add,
        Nat.mul_comm 10 n, Nat.mul_assoc n, Nat.mul_comm 10, Nat.add_assoc]
  unfold ofDigits
  rw [List.foldl_append, hfold]

theorem ofDigits_replicate_zero (n : Nat) : ofDigits 10 (List.replicate n '0') = 0 := by
  induction n with
  | zero => rfl
  | succ n ih =>
    rw [List.replicate_succ', ofDigits_append, ih]
    rfl

theorem ofDigits_append_zeros (l : List Char) (n : Nat) :
    ofDigits 10 (l ++ List.replicate n '0') = ofDigits 10 l * 10 ^ n := by
  rw [ofDigits_append, ofDigits_replicate_zero, List.length_replicate, Nat.add_zero]

theorem ofDigits_zeros_append (l : List Char) (n : Nat) :
    ofDigits 10 (List.replicate n '0' ++ l) = ofDigits 10 l := by
  rw [ofDigits_append, ofDigits_replicate_zero, Nat.zero_mul, Nat.zero_add]

theorem ofDigits_toDigits (n : Nat) : ofDigits 10 (Nat.toDigits 10 n) = n := by
  have hchars : ∀ (l : List Char) (m : Nat), (∀ c ∈ l, isAsciiDigit c) →
      l.foldl (fun n c => 10 * n + digitValue c) m = Nat.ofDigitChars 10 l m := by
    intro l
    induction l with
    | nil => simp [Nat.ofDigitChars]
    | cons c l ih =>
      intro m h
      obtain ⟨hc, hl⟩ := List.forall_mem_cons.mp h
      have hvalue : digitValue c = c.toNat - '0'.toNat := if_pos hc
      rw [List.foldl_cons, ih _ hl, hvalue, Nat.ofDigitChars_cons]
  exact (hchars _ 0 fun c hc => isAsciiDigit_of_mem_toDigits hc).trans Nat.ofDigitChars_ten_toDigits

/-- Ten times a number has one digit more, a zero. -/
theorem length_toDigits_mul_pow {n : Nat} (hn : 0 < n) (k : Nat) :
    (Nat.toDigits 10 (n * 10 ^ k)).length = (Nat.toDigits 10 n).length + k := by
  induction k with
  | zero => simp
  | succ k ih =>
    have hpos : 0 < n * 10 ^ k := Nat.mul_pos hn (Nat.pow_pos (by decide))
    have happend := Nat.toDigits_append_toDigits (b := 10) (d := 0) (by decide) hpos (by decide)
    have hmul : 10 * (n * 10 ^ k) + 0 = n * 10 ^ (k + 1) := by
      rw [Nat.add_zero, Nat.mul_left_comm, Nat.pow_succ, Nat.mul_comm 10]
    rw [hmul] at happend
    rw [← happend, List.length_append, ih]
    rfl

end InterfaceCatalog
