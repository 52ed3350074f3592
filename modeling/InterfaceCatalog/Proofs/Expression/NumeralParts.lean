import InterfaceCatalog.Proofs.Expression.Spelling
import Mathlib.Data.List.TakeWhile

namespace InterfaceCatalog

section Rows

variable {p : Char → Bool} {l r : List Char}

theorem takeWhile_eq_nil (hr : ∀ c ∈ r.head?, ¬ p c) : r.takeWhile p = [] := by
  cases r with
  | nil => rfl
  | cons c cs => exact List.takeWhile_cons_of_neg (hr c rfl)

theorem dropWhile_eq_self (hr : ∀ c ∈ r.head?, ¬ p c) : r.dropWhile p = r := by
  cases r with
  | nil => rfl
  | cons c cs => exact List.dropWhile_cons_of_neg (hr c rfl)

theorem takeWhile_append_stop (hl : ∀ c ∈ l, p c) (hr : ∀ c ∈ r.head?, ¬ p c) :
    (l ++ r).takeWhile p = l := by
  rw [List.takeWhile_append_of_pos hl, takeWhile_eq_nil hr, List.append_nil]

theorem dropWhile_append_stop (hl : ∀ c ∈ l, p c) (hr : ∀ c ∈ r.head?, ¬ p c) :
    (l ++ r).dropWhile p = r := by
  rw [List.dropWhile_append_of_pos hl, dropWhile_eq_self hr]

theorem forall_mem_takeWhile : ∀ c ∈ l.takeWhile p, p c :=
  List.all_eq_true.mp List.all_takeWhile

theorem forall_head_cons {P : Char → Prop} {c : Char} (h : P c) : ∀ d ∈ (c :: l).head?, P d := by
  intro d hd
  cases hd
  exact h

theorem head?_append_of_ne_nil (hl : l ≠ []) : (l ++ r).head? = l.head? := by
  cases l with
  | nil => exact absurd rfl hl
  | cons c cs => rfl

end Rows

def IsSuffixLetter (c : Char) : Prop :=
  c = 'u' ∨ c = 'U' ∨ c = 'l' ∨ c = 'L' ∨ c = 'f' ∨ c = 'F'

theorem isSuffixLetter_of_asciiLower {c d : Char} (hd : d = 'u' ∨ d = 'l' ∨ d = 'f')
    (h : asciiLower c = d) : IsSuffixLetter c := by
  have hnat := @asciiLower_toNat c
  have point : ∀ {e : Char}, c.toNat = e.toNat → c = e := Char.toNat_inj.mp
  rw [h] at hnat
  obtain rfl | rfl | rfl := hd <;> obtain heq | ⟨-, -, heq⟩ := hnat
  · exact .inl (point heq.symm)
  · exact .inr (.inl (point (Nat.add_right_cancel (m := 32) heq.symm)))
  · exact .inr (.inr (.inl (point heq.symm)))
  · exact .inr (.inr (.inr (.inl (point (Nat.add_right_cancel (m := 32) heq.symm)))))
  · exact .inr (.inr (.inr (.inr (.inl (point heq.symm)))))
  · exact .inr (.inr (.inr (.inr (.inr (point (Nat.add_right_cancel (m := 32) heq.symm))))))

theorem IsSuffixLetter.apart {c : Char} (h : IsSuffixLetter c) :
    isAlphanumeric c ∧ ¬ isAsciiDigit c ∧ c ≠ '.' ∧ c ≠ 'e' ∧ c ≠ 'E' ∧ c ≠ 'x' ∧ c ≠ 'X' := by
  obtain rfl | rfl | rfl | rfl | rfl | rfl := h <;> decide

theorem suffix_letters {suffix : List Char} {number : Nat} {n : Integer}
    (h : suffixInteger? suffix number = some n) :
    ∀ c ∈ suffix, IsSuffixLetter c ∧ ¬ isHexDigit c := by
  have letters : ∀ c ∈ suffix.map asciiLower, c = 'u' ∨ c = 'l' := by
    unfold suffixInteger? suffixKinds at h
    split at h
    all_goals first
      | cases h
      | next heq =>
        have hlist := congrArg String.toList heq
        rw [String.toList_ofList] at hlist
        simp [hlist]
  intro c hc
  have hlower := letters _ (List.mem_map_of_mem hc)
  have hletter := isSuffixLetter_of_asciiLower (hlower.imp_right .inl) rfl
  refine ⟨hletter, ?_⟩
  obtain rfl | rfl | rfl | rfl | rfl | rfl := hletter <;> revert hlower <;> decide

/-- Nothing in front of the text is continued by it as digits, a fraction or an exponent. -/
def Quiet (cs : List Char) : Prop :=
  ∀ c ∈ cs.head?, ¬ isAsciiDigit c ∧ c ≠ '.' ∧ c ≠ 'e' ∧ c ≠ 'E'

theorem Ends.quiet {rest : List Char} (h : Ends rest) : Quiet rest := by
  intro c hc
  obtain ⟨halnum, hdot⟩ := h c hc
  refine ⟨fun hdigit => halnum (isAlphanumeric_of_isAsciiDigit hdigit), hdot, ?_, ?_⟩
  all_goals
    rintro rfl
    exact halnum (by decide)

theorem quiet_suffix {suffix rest : List Char} (hs : ∀ c ∈ suffix, IsSuffixLetter c)
    (h : suffix = [] → Quiet rest) : Quiet (suffix ++ rest) := by
  cases suffix with
  | nil => exact h rfl
  | cons c suffix =>
    intro d hd
    cases hd
    obtain ⟨-, hdigit, hdot, hlower, hupper, -⟩ := (hs c (List.mem_cons_self ..)).apart
    exact ⟨hdigit, hdot, hlower, hupper⟩

theorem mark_apart {m : Char} (hm : m = 'e' ∨ m = 'E') : ¬ isAsciiDigit m ∧ m ≠ '.' := by
  obtain rfl | rfl := hm <;> decide

theorem scanFraction_of_quiet {cs : List Char} (h : ∀ c ∈ cs.head?, c ≠ '.') :
    scanFraction cs = ([], cs) := by
  unfold scanFraction
  split
  next => exact absurd rfl (h '.' rfl)
  next => rfl

theorem scanExponent_of_quiet {cs : List Char} (h : Quiet cs) : scanExponent cs = ([], cs) := by
  unfold scanExponent
  split
  next => rfl
  next c cs =>
    obtain ⟨-, -, hlower, hupper⟩ := h c rfl
    exact if_neg (by simp [hlower, hupper])

theorem scanExponent_mark {m : Char} {sign ds : List Char} (hm : m = 'e' ∨ m = 'E')
    (hsign : sign = [] ∨ sign = ['-'] ∨ sign = ['+']) (hds : ds ≠ []) (h : ∀ d ∈ ds, isAsciiDigit d)
    (cs : List Char) : scanExponent (m :: (sign ++ ds) ++ cs) =
      (m :: (sign ++ ds) ++ cs.takeWhile isAsciiDigit, cs.dropWhile isAsciiDigit) := by
  obtain ⟨d, ds, rfl⟩ := List.exists_cons_of_ne_nil hds
  have hd : d ≠ '-' ∧ d ≠ '+' := by
    have := h d (List.mem_cons_self ..)
    constructor <;> rintro rfl <;> revert this <;> decide
  have htake : (d :: ds ++ cs).takeWhile isAsciiDigit = d :: ds ++ cs.takeWhile isAsciiDigit :=
    List.takeWhile_append_of_pos h
  have hdrop : (d :: ds ++ cs).dropWhile isAsciiDigit = cs.dropWhile isAsciiDigit :=
    List.dropWhile_append_of_pos h
  rw [List.cons_append] at htake hdrop
  obtain rfl | rfl | rfl := hsign <;> simp [scanExponent, hm, hd, htake, hdrop]

section Shape

variable {whole fraction exponent suffix rest : List Char}

theorem fraction_exponent_head (hf : IsFraction fraction) (he : IsExponent exponent)
    {tail : List Char} (ht : Quiet tail) :
    ∀ c ∈ (fraction ++ (exponent ++ tail)).head?, ¬ isAsciiDigit c := by
  cases hf with
  | point h => exact forall_head_cons (by decide)
  | nil =>
    cases he with
    | nil => exact fun c hc => (ht c hc).1
    | mark hm hsign hds h => exact forall_head_cons (mark_apart hm).1

theorem scanFraction_append (hf : IsFraction fraction) (he : IsExponent exponent) {tail : List Char}
    (ht : Quiet tail) :
    scanFraction (fraction ++ (exponent ++ tail)) = (fraction, exponent ++ tail) := by
  cases hf with
  | point h =>
    have hhead := fraction_exponent_head .nil he ht
    simp only [List.nil_append] at hhead
    simp only [List.cons_append, scanFraction, takeWhile_append_stop h hhead,
      dropWhile_append_stop h hhead]
  | nil =>
    refine scanFraction_of_quiet ?_
    cases he with
    | nil => exact fun c hc => (ht c hc).2.1
    | mark hm hsign hds h => exact forall_head_cons (mark_apart hm).2

theorem scanExponent_append (he : IsExponent exponent) {tail : List Char} (ht : Quiet tail) :
    scanExponent (exponent ++ tail) = (exponent, tail) := by
  cases he with
  | nil => exact scanExponent_of_quiet ht
  | mark hm hsign hds h =>
    have hdigit : ∀ c ∈ tail.head?, ¬ isAsciiDigit c := fun c hc => (ht c hc).1
    rw [scanExponent_mark hm hsign hds h, takeWhile_eq_nil hdigit, dropWhile_eq_self hdigit,
      List.append_nil]

/-- A decimal number is taken apart as it is put together. -/
theorem scanDecimal_append (hw : ∀ d ∈ whole, isAsciiDigit d) (hf : IsFraction fraction)
    (he : IsExponent exponent) (hs : ∀ c ∈ suffix, IsSuffixLetter c) (hr : Ends rest) :
    scanDecimal (whole ++ (fraction ++ (exponent ++ (suffix ++ rest)))) =
      { hexadecimal := false, floating := !(fraction ++ exponent).isEmpty, start := [],
        digits := whole ++ fraction ++ exponent, suffix, rest } := by
  have ht : Quiet (suffix ++ rest) := quiet_suffix hs fun _ => hr.quiet
  have hhead := fraction_exponent_head hf he ht
  have halnum : ∀ c ∈ suffix, isAlphanumeric c := fun c hc => (hs c hc).apart.1
  have hend : ∀ c ∈ rest.head?, ¬ isAlphanumeric c := fun c hc => (hr c hc).1
  simp only [scanDecimal, takeWhile_append_stop hw hhead, dropWhile_append_stop hw hhead,
    scanFraction_append hf he ht, scanExponent_append he ht, takeWhile_append_stop halnum hend,
    dropWhile_append_stop halnum hend]

/-- The text is what a suffix leaves of it, or less. -/
def Within (suffix rest cs : List Char) : Prop :=
  cs = suffix ++ rest ∨ cs <:+ rest

theorem Within.scan {scan : List Char → List Char} (hs : ∀ c ∈ suffix, IsSuffixLetter c)
    (hscan : ∀ cs, scan cs <:+ cs) (hquiet : ∀ {cs}, Quiet cs → cs ≠ [] → scan cs = cs)
    {cs : List Char} (h : Within suffix rest cs) : Within suffix rest (scan cs) := by
  obtain rfl | h := h
  · cases suffix with
    | nil => exact .inr (hscan rest)
    | cons c suffix =>
      refine .inl (hquiet (quiet_suffix hs fun hnil => ?_) (by simp))
      cases hnil
  · exact .inr ((hscan cs).trans h)

theorem scanFraction_suffix (cs : List Char) : (scanFraction cs).2 <:+ cs := by
  unfold scanFraction
  split
  next cs => exact (List.dropWhile_suffix _).trans (List.suffix_cons ..)
  next => exact List.suffix_rfl

theorem scanExponent_suffix (cs : List Char) : (scanExponent cs).2 <:+ cs := by
  unfold scanExponent
  split
  next => exact List.suffix_rfl
  next c cs =>
    split
    next =>
      split
      next s ds =>
        split
        next =>
          have hdrop : ds.dropWhile isAsciiDigit <:+ s :: ds :=
            (List.dropWhile_suffix _).trans (List.suffix_cons ..)
          exact hdrop.trans (List.suffix_cons ..)
        next => exact (List.dropWhile_suffix _).trans (List.suffix_cons ..)
      next => exact List.nil_suffix
    next => exact List.suffix_rfl

/-- Nothing of a decimal number is left behind. -/
theorem scanDecimal_rest_suffix (hw : ∀ d ∈ whole, isAsciiDigit d) (hf : IsFraction fraction)
    (he : IsExponent exponent) (hs : ∀ c ∈ suffix, IsSuffixLetter c) :
    (scanDecimal (whole ++ (fraction ++ (exponent ++ (suffix ++ rest))))).rest <:+ rest := by
  have digits : ∀ {cs}, Within suffix rest cs → Within suffix rest (cs.dropWhile isAsciiDigit) := by
    refine Within.scan hs (fun cs => List.dropWhile_suffix _) fun {cs} h hne => ?_
    exact dropWhile_eq_self fun c hc => (h c hc).1
  have point : ∀ {cs}, Within suffix rest cs → Within suffix rest (scanFraction cs).2 := by
    refine Within.scan hs scanFraction_suffix fun {cs} h hne => ?_
    rw [scanFraction_of_quiet fun c hc => (h c hc).2.1]
  have mark : ∀ {cs}, Within suffix rest cs → Within suffix rest (scanExponent cs).2 := by
    refine Within.scan hs scanExponent_suffix fun {cs} h hne => ?_
    rw [scanExponent_of_quiet h]
  have whole_tail : Within suffix rest (suffix ++ rest) := .inl rfl
  have left : Within suffix rest (scanExponent (scanFraction
      ((whole ++ (fraction ++ (exponent ++ (suffix ++ rest)))).dropWhile isAsciiDigit)).2).2 := by
    rw [List.dropWhile_append_of_pos hw]
    have fraction_left : ∀ {cs}, (scanFraction (('.' :: cs).dropWhile isAsciiDigit)).2 =
        cs.dropWhile isAsciiDigit := rfl
    cases he with
    | nil =>
      cases hf with
      | nil => exact mark (point (digits whole_tail))
      | point h =>
        rw [List.cons_append, fraction_left, List.dropWhile_append_of_pos h]
        exact mark (digits whole_tail)
    | @mark m sign ds hm hsign hds hdigits =>
      have hmark : ∀ c ∈ (m :: (sign ++ ds) ++ (suffix ++ rest)).head?,
          ¬ isAsciiDigit c ∧ c ≠ '.' :=
        forall_head_cons (mark_apart hm)
      have hdrop := dropWhile_eq_self fun c hc => (hmark c hc).1
      have hleft : (scanFraction ((fraction ++ (m :: (sign ++ ds) ++ (suffix ++ rest))).dropWhile
          isAsciiDigit)).2 = m :: (sign ++ ds) ++ (suffix ++ rest) := by
        cases hf with
        | nil => rw [List.nil_append, hdrop, scanFraction_of_quiet fun c hc => (hmark c hc).2]
        | point h => rw [List.cons_append, fraction_left, List.dropWhile_append_of_pos h, hdrop]
      rw [hleft, scanExponent_mark hm hsign hds hdigits]
      exact digits whole_tail
  have hrest : (scanDecimal (whole ++ (fraction ++ (exponent ++ (suffix ++ rest))))).rest =
      (scanExponent (scanFraction
        ((whole ++ (fraction ++ (exponent ++ (suffix ++ rest)))).dropWhile
          isAsciiDigit)).2).2.dropWhile
          isAlphanumeric := rfl
  rw [hrest]
  obtain heq | hsuffix := left
  · have halnum : ∀ c ∈ suffix, isAlphanumeric c := fun c hc => (hs c hc).apart.1
    rw [heq, List.dropWhile_append_of_pos halnum]
    exact List.dropWhile_suffix _
  · exact (List.dropWhile_suffix _).trans hsuffix

theorem read?_plain (hwhole : whole ≠ []) (hw : ∀ d ∈ whole, isAsciiDigit d)
    (hf : IsFraction fraction) :
    Decimal.read? (whole ++ fraction) =
      some ⟨ofDigits 10 (whole ++ fraction.tail), -fraction.tail.length⟩ := by
  have hne : ∀ l : List Char, (whole ++ l).isEmpty = false := by simp [hwhole]
  cases hf with
  | nil =>
    have htake := List.takeWhile_eq_self_iff.mpr hw
    have hdrop := List.dropWhile_eq_nil_iff.mpr hw
    have hempty : whole.isEmpty = false := by simp [hwhole]
    simp [Decimal.read?, htake, hdrop, hempty]
  | @point ds h =>
    have hdot : ∀ c ∈ ('.' :: ds).head?, ¬ isAsciiDigit c := forall_head_cons (by decide)
    have htake := List.takeWhile_eq_self_iff.mpr h
    have hdrop := List.dropWhile_eq_nil_iff.mpr h
    simp only [Decimal.read?, takeWhile_append_stop hw hdot, dropWhile_append_stop hw hdot,
      htake, hdrop, hne, List.tail_cons]
    rfl

def exponentSign (sign : List Char) : Int :=
  if sign = ['-'] then -1 else 1

/-- The part of an exponent after its mark; `fraction` holds the digits after the point. -/
theorem readExponent_eq {sign ds : List Char} (hwhole : whole ≠ [])
    (hsign : sign = [] ∨ sign = ['-'] ∨ sign = ['+']) (h : ∀ d ∈ ds, isAsciiDigit d)
    (fraction : List Char) :
    let power (s : Int) (digits : List Char) : Option Decimal :=
      if digits.isEmpty || !digits.all isAsciiDigit || (whole ++ fraction).isEmpty then none
      else some ⟨ofDigits 10 (whole ++ fraction), s * ofDigits 10 digits - fraction.length⟩
    (match sign ++ ds with
      | '-' :: digits => power (-1) digits
      | '+' :: digits => power 1 digits
      | digits => power 1 digits) =
      if ds = [] then none
      else some ⟨ofDigits 10 (whole ++ fraction),
          exponentSign sign * ofDigits 10 ds - fraction.length⟩ := by
  have hall : ds.all isAsciiDigit = true := List.all_eq_true.mpr h
  have hne : (whole ++ fraction).isEmpty = false := by simp [hwhole]
  intro power
  have hpower : ∀ s, power s ds = if ds = [] then none
      else some ⟨ofDigits 10 (whole ++ fraction), s * ofDigits 10 ds - fraction.length⟩ := by
    simp only [power, hall, hne, Bool.not_true, Bool.or_false, List.isEmpty_iff, implies_true]
  obtain rfl | rfl | rfl := hsign
  · cases ds with
    | nil => exact hpower 1
    | cons d ds =>
      have hdigit := h d (List.mem_cons_self ..)
      split
      next heq => cases heq; exact absurd hdigit (by decide)
      next heq => cases heq; exact absurd hdigit (by decide)
      next => exact hpower 1
  · exact hpower (-1)
  · exact hpower 1

theorem read?_exponent {m : Char} {sign ds : List Char} (hwhole : whole ≠ [])
    (hw : ∀ d ∈ whole, isAsciiDigit d) (hf : IsFraction fraction) (hm : m = 'e' ∨ m = 'E')
    (hsign : sign = [] ∨ sign = ['-'] ∨ sign = ['+']) (h : ∀ d ∈ ds, isAsciiDigit d) :
    Decimal.read? (whole ++ (fraction ++ (m :: (sign ++ ds)))) =
      if ds = [] then none
      else some ⟨ofDigits 10 (whole ++ fraction.tail),
        exponentSign sign * ofDigits 10 ds - fraction.tail.length⟩ := by
  have hmark : ∀ l, ∀ c ∈ (m :: l : List Char).head?, ¬ isAsciiDigit c :=
    fun l => forall_head_cons (mark_apart hm).1
  have hpoint : ∀ l, ∀ c ∈ ('.' :: l : List Char).head?, ¬ isAsciiDigit c :=
    fun l => forall_head_cons (by decide)
  cases hf with
  | nil =>
    simp only [Decimal.read?, List.nil_append, takeWhile_append_stop hw (hmark _),
      dropWhile_append_stop hw (hmark _)]
    obtain rfl | rfl := hm <;> exact readExponent_eq hwhole hsign h []
  | @point digits hdigits =>
    simp only [Decimal.read?, List.cons_append, takeWhile_append_stop hw (hpoint _),
      dropWhile_append_stop hw (hpoint _), takeWhile_append_stop hdigits (hmark _),
      dropWhile_append_stop hdigits (hmark _), hm, if_true]
    exact readExponent_eq hwhole hsign h digits

end Shape

section Hexadecimal

variable {start digits suffix rest : List Char}

theorem scanHexadecimal_append (hd : ∀ d ∈ digits, isHexDigit d)
    (hs : ∀ c ∈ suffix, IsSuffixLetter c ∧ ¬ isHexDigit c) (hr : Ends rest) :
    scanHexadecimal start (digits ++ (suffix ++ rest)) =
      { hexadecimal := true, floating := false, start, digits, suffix, rest } := by
  have hend : ∀ c ∈ rest.head?, ¬ isAlphanumeric c := fun c hc => (hr c hc).1
  have halnum : ∀ c ∈ suffix, isAlphanumeric c := fun c hc => (hs c hc).1.apart.1
  have hhead : ∀ c ∈ (suffix ++ rest).head?, ¬ isHexDigit c := by
    intro c hc hhex
    cases suffix with
    | nil => exact hend c hc (isAlphanumeric_of_isHexDigit hhex)
    | cons d suffix =>
      cases hc
      exact (hs c (List.mem_cons_self ..)).2 hhex
  simp only [scanHexadecimal, takeWhile_append_stop hd hhead, dropWhile_append_stop hd hhead,
    takeWhile_append_stop halnum hend, dropWhile_append_stop halnum hend]

/-- Nothing of a hexadecimal number is left behind. -/
theorem scanHexadecimal_rest_suffix (hd : ∀ d ∈ digits, isHexDigit d)
    (hs : ∀ c ∈ suffix, IsSuffixLetter c ∧ ¬ isHexDigit c) :
    (scanHexadecimal start (digits ++ (suffix ++ rest))).rest <:+ rest := by
  have halnum : ∀ c ∈ suffix, isAlphanumeric c := fun c hc => (hs c hc).1.apart.1
  have hrest : (scanHexadecimal start (digits ++ (suffix ++ rest))).rest =
      ((digits ++ (suffix ++ rest)).dropWhile isHexDigit).dropWhile isAlphanumeric := rfl
  rw [hrest, List.dropWhile_append_of_pos hd]
  cases suffix with
  | nil => exact (List.dropWhile_suffix _).trans (List.dropWhile_suffix _)
  | cons c suffix =>
    have hhead : ∀ d ∈ (c :: suffix ++ rest).head?, ¬ isHexDigit d := by
      intro d hd
      cases hd
      exact (hs c (List.mem_cons_self ..)).2
    rw [dropWhile_eq_self hhead, List.dropWhile_append_of_pos halnum]
    exact List.dropWhile_suffix _

end Hexadecimal

end InterfaceCatalog
