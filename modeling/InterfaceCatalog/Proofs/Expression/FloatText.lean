import InterfaceCatalog.Proofs.Expression.Numeral
import InterfaceCatalog.Proofs.Number.Decimal

namespace InterfaceCatalog

/-- The text is a floating number that rounds as the decimal does. -/
def ReadsBack (text : List Char) (d : Decimal) : Prop :=
  IsFloating text ∧ ∃ d', Decimal.read? text = some d' ∧ ∀ f, d'.nearest f = d.nearest f

theorem readsBack_point {whole ds : List Char} {n k : Nat} {e : Int} (hwhole : whole ≠ [])
    (hw : ∀ d ∈ whole, isAsciiDigit d) (hds : ∀ d ∈ ds, isAsciiDigit d)
    (hn : ofDigits 10 (whole ++ ds) = n * 10 ^ k) (he : -(ds.length : Int) = e - k) :
    ReadsBack (whole ++ '.' :: ds) ⟨n, e⟩ := by
  have hfloating : IsFloating (whole ++ '.' :: ds ++ []) :=
    .mk hwhole hw (.point hds) .nil (by simp)
  have hread := read?_plain hwhole hw (.point hds)
  rw [List.append_nil] at hfloating
  rw [List.tail_cons, hn, he] at hread
  exact ⟨hfloating, _, hread, fun f => Decimal.nearest_shift n k e⟩

theorem readsBack_exponent {whole fraction sign ds : List Char} {n : Nat} {e : Int}
    (hwhole : whole ≠ []) (hw : ∀ d ∈ whole, isAsciiDigit d) (hf : IsFraction fraction)
    (hsign : sign = [] ∨ sign = ['-'] ∨ sign = ['+']) (hds : ds ≠ []) (h : ∀ d ∈ ds, isAsciiDigit d)
    (hn : ofDigits 10 (whole ++ fraction.tail) = n)
    (he : exponentSign sign * ofDigits 10 ds - fraction.tail.length = e) :
    ReadsBack (whole ++ (fraction ++ ('e' :: (sign ++ ds)))) ⟨n, e⟩ := by
  have hfloating : IsFloating (whole ++ fraction ++ ('e' :: (sign ++ ds))) :=
    .mk hwhole hw hf (.mark (.inl rfl) hsign hds h) (by simp)
  have hread := read?_exponent hwhole hw hf (.inl rfl : 'e' = 'e' ∨ 'e' = 'E') hsign h
  rw [List.append_assoc] at hfloating
  rw [if_neg hds, hn, he] at hread
  exact ⟨hfloating, _, hread, fun f => rfl⟩

theorem toList_toString_int (p : Int) :
    (toString p).toList = (if p < 0 then ['-'] else []) ++ Nat.toDigits 10 p.natAbs := by
  cases p with
  | ofNat n =>
    rw [if_neg (show ¬ Int.ofNat n < 0 from Int.not_lt.mpr (Int.zero_le_ofNat n))]
    exact Nat.toList_repr
  | negSucc n =>
    rw [if_pos (Int.negSucc_lt_zero n)]
    exact (String.toList_append ..).trans (congrArg ('-' :: ·) Nat.toList_repr)

namespace Decimal

/-- The significant digits are all of them but for zeros at the end. -/
theorem significant_spec (d : Decimal) : ∃ z,
    Nat.toDigits 10 d.digits = d.significant.1 ++ List.replicate z '0' ∧
      d.significant.2 = d.exponent + d.significant.1.length + z := by
  have hparts :=
    List.takeWhile_append_dropWhile (p := (· == '0')) (l := (Nat.toDigits 10 d.digits).reverse)
  have hzeros : ∀ c ∈ (Nat.toDigits 10 d.digits).reverse.takeWhile (· == '0'), c = '0' := by
    intro c hc
    exact beq_iff_eq.mp (forall_mem_takeWhile c hc)
  have hreplicate := List.eq_replicate_of_mem hzeros
  generalize ((Nat.toDigits 10 d.digits).reverse.takeWhile (· == '0')).length = z at hreplicate
  rw [hreplicate] at hparts
  have hall := congrArg List.reverse hparts
  rw [List.reverse_append, List.reverse_reverse, List.reverse_replicate] at hall
  refine ⟨z, hall.symm, ?_⟩
  have hlength := congrArg List.length hall
  rw [List.length_append, List.length_replicate] at hlength
  unfold significant
  simp only
  omega

theorem isAsciiDigit_of_significant (d : Decimal) : ∀ c ∈ d.significant.1, isAsciiDigit c := by
  obtain ⟨z, hall, -⟩ := d.significant_spec
  intro c hc
  have hmem : c ∈ Nat.toDigits 10 d.digits := by
    rw [hall]
    exact List.mem_append_left _ hc
  exact isAsciiDigit_of_mem_toDigits hmem

theorem nearest_significant (d : Decimal) (f : FloatFormat) :
    nearest f ⟨ofDigits 10 d.significant.1, d.significant.2 - d.significant.1.length⟩ =
      nearest f d := by
  obtain ⟨z, hall, hpoint⟩ := d.significant_spec
  have hdigits := ofDigits_toDigits d.digits
  rw [hall, ofDigits_append_zeros] at hdigits
  have hexponent : d.exponent = d.significant.2 - d.significant.1.length - z := by omega
  have hshift := nearest_shift (f := f) (ofDigits 10 d.significant.1) z
    (d.significant.2 - d.significant.1.length)
  rw [hdigits, ← hexponent] at hshift
  exact hshift.symm

variable {kept : List Char} {point : Int}

theorem isAsciiDigit_of_mem_zero {c : Char} (h : c ∈ ['0']) : isAsciiDigit c := by
  obtain rfl := List.mem_singleton.mp h
  decide

theorem isAsciiDigit_of_mem_zeros {n : Nat} {c : Char} (h : c ∈ List.replicate n '0') :
    isAsciiDigit c := by
  obtain rfl := List.eq_of_mem_replicate h
  decide

/-- Without digits the text is that of zero. -/
theorem readsBack_zero (e : Int) : ReadsBack ['0', '.', '0'] ⟨0, e⟩ := by
  have hdigit : ∀ c ∈ ['0'], isAsciiDigit c := fun c hc => isAsciiDigit_of_mem_zero hc
  obtain ⟨hfloating, d', hd', hnearest⟩ :=
    readsBack_point (n := 0) (k := 1) (e := 0) (List.cons_ne_nil '0' []) hdigit hdigit
      (by decide) (by decide)
  exact ⟨hfloating, d', hd', fun f =>
    (hnearest f).trans ((nearest_zero 0).trans (nearest_zero e).symm)⟩

/-- Zeros stand between the point and the digits. -/
theorem readsBack_front (hkept : ∀ c ∈ kept, isAsciiDigit c) (hpoint : point ≤ 0) :
    ReadsBack ('0' :: '.' :: (List.replicate (-point).toNat '0' ++ kept))
      ⟨ofDigits 10 kept, point - kept.length⟩ := by
  have hds : ∀ c ∈ List.replicate (-point).toNat '0' ++ kept, isAsciiDigit c :=
    List.forall_mem_append.mpr ⟨fun c hc => isAsciiDigit_of_mem_zeros hc, hkept⟩
  have hn : ofDigits 10 (['0'] ++ (List.replicate (-point).toNat '0' ++ kept)) =
      ofDigits 10 kept * 10 ^ 0 := by
    rw [Nat.pow_zero, Nat.mul_one]
    exact (ofDigits_zeros_append _ 1).trans (ofDigits_zeros_append _ _)
  have hlength : (List.replicate (-point).toNat '0' ++ kept).length =
      (-point).toNat + kept.length := by
    rw [List.length_append, List.length_replicate]
  exact readsBack_point (by simp) (fun c hc => isAsciiDigit_of_mem_zero hc) hds hn (by omega)

/-- Zeros stand between the digits and the point. -/
theorem readsBack_back (hkept : ∀ c ∈ kept, isAsciiDigit c) (hne : kept ≠ [])
    (hpoint : kept.length ≤ point) :
    ReadsBack (kept ++ List.replicate (point.toNat - kept.length) '0' ++ ['.', '0'])
      ⟨ofDigits 10 kept, point - kept.length⟩ := by
  have hw : ∀ c ∈ kept ++ List.replicate (point.toNat - kept.length) '0', isAsciiDigit c :=
    List.forall_mem_append.mpr ⟨hkept, fun c hc => isAsciiDigit_of_mem_zeros hc⟩
  have hn : ofDigits 10 (kept ++ List.replicate (point.toNat - kept.length) '0' ++ ['0']) =
      ofDigits 10 kept * 10 ^ (point.toNat - kept.length + 1) := by
    rw [List.append_assoc, ← List.replicate_succ', ofDigits_append_zeros]
  have hds : ∀ c ∈ ['0'], isAsciiDigit c := fun c hc => isAsciiDigit_of_mem_zero hc
  have hwhole : kept ++ List.replicate (point.toNat - kept.length) '0' ≠ [] :=
    List.append_ne_nil_of_left_ne_nil hne _
  exact readsBack_point hwhole hw hds hn (by rw [List.length_singleton]; omega)

/-- The point stands between two digits. -/
theorem readsBack_within (hkept : ∀ c ∈ kept, isAsciiDigit c) (hlow : 0 < point)
    (hhigh : point < kept.length) :
    ReadsBack (kept.take point.toNat ++ '.' :: kept.drop point.toNat)
      ⟨ofDigits 10 kept, point - kept.length⟩ := by
  have hne : kept.take point.toNat ≠ [] := by
    intro hnil
    have hlength := congrArg List.length hnil
    rw [List.length_take, List.length_nil] at hlength
    omega
  have hn : ofDigits 10 (kept.take point.toNat ++ kept.drop point.toNat) =
      ofDigits 10 kept * 10 ^ 0 := by
    rw [List.take_append_drop, Nat.pow_zero, Nat.mul_one]
  have hlength : (kept.drop point.toNat).length = kept.length - point.toNat := List.length_drop
  exact readsBack_point hne (fun c hc => hkept c (List.mem_of_mem_take hc))
    (fun c hc => hkept c (List.mem_of_mem_drop hc)) hn (by omega)

/-- One digit stands in front of the point, and an exponent moves it. -/
theorem readsBack_scientific {c : Char} {cs : List Char} (hkept : ∀ d ∈ c :: cs, isAsciiDigit d) :
    ReadsBack
      ([c] ++ ((if cs.isEmpty then [] else '.' :: cs) ++ ('e' :: (toString (point - 1)).toList)))
      ⟨ofDigits 10 (c :: cs), point - (c :: cs).length⟩ := by
  obtain ⟨hc, hcs⟩ := List.forall_mem_cons.mp hkept
  have hf : IsFraction (if cs.isEmpty then [] else '.' :: cs) := by
    split
    next => exact .nil
    next => exact .point hcs
  have htail : (if cs.isEmpty then [] else '.' :: cs).tail = cs := by
    split
    next hempty => exact (List.isEmpty_iff.mp hempty).symm
    next => rfl
  have hsign : (if point - 1 < 0 then ['-'] else []) = [] ∨
    (if point - 1 < 0 then ['-'] else []) = ['-'] ∨
      (if point - 1 < 0 then ['-'] else []) = ['+'] := by
    split
    next => exact .inr (.inl rfl)
    next => exact .inl rfl
  have hvalue : exponentSign (if point - 1 < 0 then ['-'] else []) * (point - 1).natAbs =
      point - 1 := by
    unfold exponentSign
    split
    next => simp only [if_true]; omega
    next => simp only [List.nil_eq, List.cons_ne_nil, if_false]; omega
  rw [toList_toString_int]
  refine readsBack_exponent (by simp) (by simpa using hc) hf hsign Nat.toDigits_ne_nil
    (fun d hd => isAsciiDigit_of_mem_toDigits hd) (by rw [htail]; rfl) ?_
  rw [ofDigits_toDigits, htail, hvalue, List.length_cons]
  omega

theorem text_readsBack (d : Decimal) : ReadsBack d.text.toList d := by
  have back : ReadsBack d.text.toList
      ⟨ofDigits 10 d.significant.1, d.significant.2 - d.significant.1.length⟩ := by
    have hkept := d.isAsciiDigit_of_significant
    unfold text
    generalize d.significant = s at hkept
    obtain ⟨kept, point⟩ := s
    simp only at hkept ⊢
    split
    next hempty =>
      obtain rfl := List.isEmpty_iff.mp hempty
      exact readsBack_zero point
    next hempty =>
      have hne : kept ≠ [] := fun hnil => hempty (List.isEmpty_iff.mpr hnil)
      split
      next =>
        split
        next hpoint =>
          simp only [String.toList_append, String.toList_ofList]
          exact readsBack_front hkept hpoint
        next hpoint =>
          split
          next hback =>
            simp only [String.toList_append, String.toList_ofList]
            exact readsBack_back hkept hne hback
          next hback =>
            simp only [String.toList_append, String.toList_ofList, List.append_assoc]
            exact readsBack_within hkept (by omega) (by omega)
      next =>
        obtain ⟨c, cs, rfl⟩ := List.exists_cons_of_ne_nil hne
        have hfraction :
          (if (c :: cs).tail.isEmpty then "" else "." ++ String.ofList (c :: cs).tail).toList =
            if cs.isEmpty then [] else '.' :: cs := by
          rw [List.tail_cons]
          split
          next => rfl
          next => simp only [String.toList_append, String.toList_ofList]; rfl
        simp only [String.toList_append, hfraction, List.append_assoc, String.toList_ofList]
        exact readsBack_scientific hkept
  obtain ⟨hfloating, d', hd', hnearest⟩ := back
  exact ⟨hfloating, d', hd', fun f => (hnearest f).trans (d.nearest_significant f)⟩

end Decimal

end InterfaceCatalog
