import InterfaceCatalog.Proofs.Expression.NumeralParts

namespace InterfaceCatalog

theorem scanNumeral_hexadecimal {x : Char} (hx : x = 'x' ∨ x = 'X') (cs : List Char) :
    scanNumeral ('0' :: x :: cs) = scanHexadecimal ['0', x] cs :=
  if_pos hx

theorem scanNumeral_decimal {cs : List Char} (h : ∀ c ∈ cs.tail.head?, c ≠ 'x' ∧ c ≠ 'X') :
    scanNumeral cs = scanDecimal cs := by
  unfold scanNumeral
  split
  next x cs =>
    obtain ⟨hlower, hupper⟩ := h x rfl
    exact if_neg (by simp [hlower, hupper])
  next => rfl

theorem scanNumeral_cases (cs : List Char) :
    (∃ x ds, cs = '0' :: x :: ds ∧ (x = 'x' ∨ x = 'X') ∧
      scanNumeral cs = scanHexadecimal ['0', x] ds) ∨ scanNumeral cs = scanDecimal cs := by
  unfold scanNumeral
  split
  next x ds =>
    split
    next hx => exact .inl ⟨x, ds, rfl, hx, rfl⟩
    next => exact .inr rfl
  next => exact .inr rfl

/-- The two shapes of a number that has a value. -/
theorem Denotes.shape {w : List Char} {v : Value} (h : Denotes w v) :
    (∃ x digits suffix, w = '0' :: x :: (digits ++ suffix) ∧ (x = 'x' ∨ x = 'X') ∧
      (∀ d ∈ digits, isHexDigit d) ∧ (∀ c ∈ suffix, IsSuffixLetter c ∧ ¬ isHexDigit c) ∧
      ∀ rest, Numeral.value? ⟨true, false, ['0', x], digits, suffix, rest⟩ = some v) ∨
    (∃ whole fraction exponent suffix, w = whole ++ (fraction ++ (exponent ++ suffix)) ∧
      whole ≠ [] ∧
      (∀ d ∈ whole, isAsciiDigit d) ∧ IsFraction fraction ∧ IsExponent exponent ∧
      (∀ c ∈ suffix, IsSuffixLetter c) ∧
      ∀ rest, Numeral.value? ⟨false, !(fraction ++ exponent).isEmpty, [],
        whole ++ fraction ++ exponent, suffix, rest⟩ = some v) := by
  cases h with
  | @decimal digits suffix n hdigits h hn =>
    refine .inr ⟨digits, [], [], suffix, by simp, hdigits, h, .nil, .nil,
      fun c hc => (suffix_letters hn c hc).1, fun rest => ?_⟩
    unfold suffixInteger? at hn
    simp [Numeral.value?, hdigits, hn]
  | @hexadecimal x digits suffix n hx hdigits h hn =>
    refine .inl ⟨x, digits, suffix, rfl, hx, h, suffix_letters hn, fun rest => ?_⟩
    unfold suffixInteger? at hn
    simp [Numeral.value?, hdigits, hn]
  | double h hd =>
    obtain @⟨whole, fraction, exponent, hwhole, hw, hf, he, hne⟩ := h
    refine .inr ⟨whole, fraction, exponent, [], by simp, hwhole, hw, hf, he, by simp,
      fun rest => ?_⟩
    have hfloating : (!(fraction ++ exponent).isEmpty) = true := by simpa using hne
    simp only [Numeral.value?, hfloating, if_true, hd]
    rfl
  | @float _ mark _ h hd hm =>
    obtain @⟨whole, fraction, exponent, hwhole, hw, hf, he, hne⟩ := h
    refine .inr ⟨whole, fraction, exponent, [mark], by simp, hwhole, hw, hf, he, ?_, fun rest => ?_⟩
    · intro c hc
      obtain rfl := List.mem_singleton.mp hc
      exact .inr (.inr (.inr (.inr hm)))
    · have hfloating : (!(fraction ++ exponent).isEmpty) = true := by simpa using hne
      simp only [Numeral.value?, hfloating, if_true, hd]
      obtain rfl | rfl := hm <;> rfl

theorem decimal_ne_mark {whole fraction exponent suffix : List Char}
    (hw : ∀ d ∈ whole, isAsciiDigit d) (hf : IsFraction fraction) (he : IsExponent exponent)
    (hs : ∀ c ∈ suffix, IsSuffixLetter c) :
    ∀ c ∈ whole ++ (fraction ++ (exponent ++ suffix)), c ≠ 'x' ∧ c ≠ 'X' := by
  have digit : ∀ {c}, isAsciiDigit c → c ≠ 'x' ∧ c ≠ 'X' := by
    intro c hc
    constructor <;> rintro rfl <;> revert hc <;> decide
  have hfraction : ∀ c ∈ fraction, c ≠ 'x' ∧ c ≠ 'X' := by
    cases hf with
    | nil => simp
    | point h => exact List.forall_mem_cons.mpr ⟨by decide, fun c hc => digit (h c hc)⟩
  have hexponent : ∀ c ∈ exponent, c ≠ 'x' ∧ c ≠ 'X' := by
    cases he with
    | nil => simp
    | mark hm hsign hds h =>
      refine List.forall_mem_cons.mpr
        ⟨?_, List.forall_mem_append.mpr ⟨?_, fun c hc => digit (h c hc)⟩⟩
      · obtain rfl | rfl := hm <;> decide
      · obtain rfl | rfl | rfl := hsign <;> simp
  intro c hc
  simp only [List.mem_append] at hc
  obtain hc | hc | hc | hc := hc
  · exact digit (hw c hc)
  · exact hfraction c hc
  · exact hexponent c hc
  · exact (hs c hc).apart.2.2.2.2.2

theorem tail_head?_append {l r : List Char} {c : Char} (h : c ∈ (l ++ r).tail.head?) (hl : l ≠ []) :
    c ∈ l ∨ c ∈ r.head? := by
  cases l with
  | nil => exact absurd rfl hl
  | cons a l =>
    cases l with
    | nil => exact .inr h
    | cons b l =>
      cases h
      exact .inl (by simp)

/-- A number that ends where it should is scanned as it is. -/
theorem Denotes.scan {w rest : List Char} {v : Value} (h : Denotes w v) (hr : Ends rest) :
    (scanNumeral (w ++ rest)).text = w ∧ (scanNumeral (w ++ rest)).rest = rest ∧
      (scanNumeral (w ++ rest)).value? = some v := by
  obtain ⟨x, digits, suffix, rfl, hx, hd, hs, hv⟩ |
    ⟨whole, fraction, exponent, suffix, rfl, hwhole, hw, hf, he, hs, hv⟩ := h.shape
  · have hscan : scanNumeral ('0' :: x :: (digits ++ suffix) ++ rest) =
        ⟨true, false, ['0', x], digits, suffix, rest⟩ := by
      rw [List.cons_append, List.cons_append, List.append_assoc, scanNumeral_hexadecimal hx,
        scanHexadecimal_append hd hs hr]
    exact hscan ▸ ⟨rfl, rfl, hv rest⟩
  · have hmark := decimal_ne_mark hw hf he hs
    have hplain : ∀ c ∈ (whole ++ (fraction ++ (exponent ++ suffix)) ++ rest).tail.head?,
        c ≠ 'x' ∧ c ≠ 'X' := by
      intro c hc
      obtain hc | hc := tail_head?_append hc (by simp [hwhole])
      · exact hmark c hc
      · have halnum := (hr c hc).1
        constructor <;> rintro rfl <;> exact halnum (by decide)
    have hscan : scanNumeral (whole ++ (fraction ++ (exponent ++ suffix)) ++ rest) =
        ⟨false, !(fraction ++ exponent).isEmpty, [], whole ++ fraction ++ exponent,
          suffix, rest⟩ := by
      rw [scanNumeral_decimal hplain]
      simp only [List.append_assoc]
      rw [scanDecimal_append hw hf he hs hr]
      simp
    rw [hscan]
    exact ⟨by simp [Numeral.text], rfl, hv rest⟩

theorem scanFraction_parts (cs : List Char) : (scanFraction cs).1 ++ (scanFraction cs).2 = cs := by
  unfold scanFraction
  split
  next => exact congrArg ('.' :: ·) List.takeWhile_append_dropWhile
  next => rfl

theorem scanExponent_parts (cs : List Char) : (scanExponent cs).1 ++ (scanExponent cs).2 = cs := by
  unfold scanExponent
  split
  next => rfl
  next c cs =>
    split
    next =>
      split
      next s ds =>
        split
        next => exact congrArg (c :: s :: ·) List.takeWhile_append_dropWhile
        next => exact congrArg (c :: ·) List.takeWhile_append_dropWhile
      next => rfl
    next => rfl

theorem scanDecimal_parts (cs : List Char) :
    (scanDecimal cs).text ++ (scanDecimal cs).rest = cs := by
  have hwhole := List.takeWhile_append_dropWhile (p := isAsciiDigit) (l := cs)
  have hfraction := scanFraction_parts (cs.dropWhile isAsciiDigit)
  have hexponent := scanExponent_parts (scanFraction (cs.dropWhile isAsciiDigit)).2
  simp only [scanDecimal, Numeral.text, List.nil_append, List.append_assoc,
    List.takeWhile_append_dropWhile, hexponent, hfraction, hwhole]

theorem scanHexadecimal_parts (start cs : List Char) :
    (scanHexadecimal start cs).text ++ (scanHexadecimal start cs).rest = start ++ cs := by
  simp only [scanHexadecimal, Numeral.text, List.append_assoc, List.takeWhile_append_dropWhile]

theorem scanNumeral_parts (cs : List Char) :
    (scanNumeral cs).text ++ (scanNumeral cs).rest = cs := by
  unfold scanNumeral
  split
  next x cs =>
    split
    next => exact scanHexadecimal_parts ['0', x] cs
    next => exact scanDecimal_parts _
  next => exact scanDecimal_parts cs

theorem Denotes.scan_rest_suffix {w : List Char} {v : Value} (h : Denotes w v) (rest : List Char) :
    (scanNumeral (w ++ rest)).rest <:+ rest := by
  obtain ⟨x, digits, suffix, rfl, hx, hd, hs, -⟩ |
    ⟨whole, fraction, exponent, suffix, rfl, hwhole, hw, hf, he, hs, -⟩ := h.shape
  · rw [List.cons_append, List.cons_append, List.append_assoc, scanNumeral_hexadecimal hx]
    exact scanHexadecimal_rest_suffix hd hs
  · obtain ⟨x, cs, hcs, hx, hscan⟩ | hscan :=
      scanNumeral_cases (whole ++ (fraction ++ (exponent ++ suffix)) ++ rest)
    · -- a single digit in front of a hexadecimal mark
      have hmark := decimal_ne_mark hw hf he hs
      have hrest : rest = x :: cs := by
        obtain ⟨d, w, hdw⟩ := List.exists_cons_of_ne_nil (List.append_ne_nil_of_left_ne_nil hwhole
          (fraction ++ (exponent ++ suffix)))
        rw [hdw] at hmark hcs
        cases w with
        | nil => exact (List.cons.inj hcs).2
        | cons y w =>
          obtain rfl := (List.cons.inj (List.cons.inj hcs).2).1
          have := hmark y (by simp)
          exact absurd hx (by simp [this.1, this.2])
      rw [hscan, hrest]
      refine List.IsSuffix.trans ?_ (List.suffix_cons ..)
      exact (List.dropWhile_suffix _).trans (List.dropWhile_suffix _)
    · rw [hscan]
      simp only [List.append_assoc]
      exact scanDecimal_rest_suffix hw hf he hs

/-- The scanner takes at least what has a value. -/
theorem Denotes.length_le {w cs : List Char} {v : Value} (h : Denotes w v) (hw : w <+: cs) :
    w.length ≤ (scanNumeral cs).text.length := by
  obtain ⟨rest, rfl⟩ := hw
  have hparts := congrArg List.length (scanNumeral_parts (w ++ rest))
  have hrest := (h.scan_rest_suffix rest).length_le
  simp only [List.length_append] at hparts
  omega

theorem scanFraction_isFraction (cs : List Char) : IsFraction (scanFraction cs).1 := by
  unfold scanFraction
  split
  next cs => exact .point forall_mem_takeWhile
  next => exact .nil

/-- What is taken as an exponent is one, unless it lacks its digits. -/
theorem scanExponent_cases (cs : List Char) : IsExponent (scanExponent cs).1 ∨
    ∃ m sign, (scanExponent cs).1 = m :: sign ∧ (m = 'e' ∨ m = 'E') ∧
      (sign = [] ∨ sign = ['-'] ∨ sign = ['+']) := by
  have parts : ∀ {m} (sign ds : List Char), (m = 'e' ∨ m = 'E') →
      (sign = [] ∨ sign = ['-'] ∨ sign = ['+']) →
      IsExponent (m :: (sign ++ ds.takeWhile isAsciiDigit)) ∨
        ∃ m' sign', m :: (sign ++ ds.takeWhile isAsciiDigit) = m' :: sign' ∧ (m' = 'e' ∨ m' = 'E') ∧
          (sign' = [] ∨ sign' = ['-'] ∨ sign' = ['+']) := by
    intro m sign ds hm hsign
    by_cases hds : ds.takeWhile isAsciiDigit = []
    · exact .inr ⟨m, sign, by simp [hds], hm, hsign⟩
    · exact .inl (.mark hm hsign hds forall_mem_takeWhile)
  unfold scanExponent
  split
  next => exact .inl .nil
  next c cs =>
    split
    next hc =>
      split
      next s ds =>
        split
        next hs =>
          obtain rfl | rfl := hs
          · exact parts ['-'] ds hc (.inr (.inl rfl))
          · exact parts ['+'] ds hc (.inr (.inr rfl))
        next => exact parts [] (s :: ds) hc (.inl rfl)
      next => exact .inr ⟨c, [], rfl, hc, .inl rfl⟩
    next => exact .inl .nil

theorem value?_integer {n : Numeral} {v : Value} (hn : n.floating = false) (h : n.value? = some v) :
    n.digits ≠ [] ∧
      ∃ i, suffixInteger? n.suffix (ofDigits (if n.hexadecimal then 16 else 10) n.digits) =
      some i ∧ v = .integer i := by
  unfold Numeral.value? at h
  simp only [hn, Bool.false_eq_true, if_false, List.isEmpty_iff] at h
  split at h
  next => cases h
  next hdigits =>
    obtain ⟨i, hi, rfl⟩ := Option.map_eq_some_iff.mp h
    exact ⟨hdigits, i, hi, rfl⟩

theorem value?_floating {n : Numeral} {v : Value} (hn : n.floating = true) (h : n.value? = some v) :
    ∃ d, Decimal.read? n.digits = some d ∧
      (n.suffix = [] ∧ v = .double (d.toBinary _ false) ∨
        ∃ c, n.suffix = [c] ∧ (c = 'f' ∨ c = 'F') ∧ v = .float (d.toBinary _ false)) := by
  unfold Numeral.value? at h
  simp only [hn, if_true] at h
  have lower : ∀ {s : String}, String.ofList (n.suffix.map asciiLower) = s →
      n.suffix.map asciiLower = s.toList := by
    intro s hs
    rw [← hs, String.toList_ofList]
  split at h
  next heq =>
    obtain ⟨d, hd, rfl⟩ := Option.map_eq_some_iff.mp h
    exact ⟨d, hd, .inl ⟨List.map_eq_nil_iff.mp (lower heq), rfl⟩⟩
  next heq =>
    obtain ⟨d, hd, rfl⟩ := Option.map_eq_some_iff.mp h
    obtain ⟨c, cs, hsuffix, hc, hcs⟩ :=
      List.map_eq_cons_iff.mp ((lower heq).trans (by decide : _ = ['f']))
    obtain rfl := List.map_eq_nil_iff.mp hcs
    have hnat := @asciiLower_toNat c
    rw [hc] at hnat
    refine ⟨d, hd, .inr ⟨c, hsuffix, ?_, rfl⟩⟩
    obtain hnat | ⟨-, -, hnat⟩ := hnat
    · exact .inl (Char.toNat_inj.mp hnat.symm)
    · exact .inr (Char.toNat_inj.mp (Nat.add_right_cancel (m := 32) hnat.symm))
  next => cases h

theorem scanDecimal_sound {c : Char} {cs : List Char} {v : Value} (hc : isAsciiDigit c)
    (h : (scanDecimal (c :: cs)).value? = some v) : Denotes (scanDecimal (c :: cs)).text v := by
  have hwhole : (c :: cs).takeWhile isAsciiDigit ≠ [] := by simp [hc]
  have hw : ∀ d ∈ (c :: cs).takeWhile isAsciiDigit, isAsciiDigit d := forall_mem_takeWhile
  have hf := scanFraction_isFraction ((c :: cs).dropWhile isAsciiDigit)
  have he := scanExponent_cases (scanFraction ((c :: cs).dropWhile isAsciiDigit)).2
  simp only [scanDecimal] at h ⊢
  generalize (c :: cs).takeWhile isAsciiDigit = whole at hwhole hw hf he h ⊢
  generalize scanFraction ((c :: cs).dropWhile isAsciiDigit) = fraction at hf he h ⊢
  generalize scanExponent fraction.2 = exponent at he h ⊢
  generalize exponent.2.takeWhile isAlphanumeric = suffix at h ⊢
  simp only [Numeral.text, List.nil_append]
  by_cases hne : fraction.1 ++ exponent.1 = []
  · obtain ⟨hdigits, i, hi, rfl⟩ := value?_integer (by simp [hne]) h
    have hparts : whole ++ fraction.1 ++ exponent.1 = whole := by
      rw [List.append_assoc, hne, List.append_nil]
    simp only [hparts] at hdigits hi ⊢
    exact .decimal hdigits hw hi
  · obtain ⟨d, hd, hv⟩ := value?_floating (by simpa using hne) h
    have hexponent : IsExponent exponent.1 := by
      obtain he | ⟨m, sign, hm, hmark, hsign⟩ := he
      · exact he
      · have hnone := read?_exponent hwhole hw hf hmark hsign (List.forall_mem_nil _)
        simp only [List.append_nil, if_true] at hnone
        simp only [List.append_assoc, hm, hnone] at hd
        cases hd
    have hshape : IsFloating (whole ++ fraction.1 ++ exponent.1) := .mk hwhole hw hf hexponent hne
    obtain ⟨hsuffix, rfl⟩ | ⟨mark, hsuffix, hmark, rfl⟩ := hv
    · simp only at hsuffix
      rw [hsuffix, List.append_nil]
      exact .double hshape hd
    · simp only at hsuffix
      rw [hsuffix]
      exact .float hshape hd hmark

theorem scanNumeral_sound {c : Char} {cs : List Char} {v : Value} (hc : isAsciiDigit c)
    (h : (scanNumeral (c :: cs)).value? = some v) : Denotes (scanNumeral (c :: cs)).text v := by
  obtain ⟨x, ds, hcs, hx, hscan⟩ | hscan := scanNumeral_cases (c :: cs)
  · rw [hscan] at h ⊢
    obtain ⟨hdigits, i, hi, rfl⟩ := value?_integer rfl h
    exact .hexadecimal hx hdigits forall_mem_takeWhile hi
  · rw [hscan] at h ⊢
    exact scanDecimal_sound hc h

end InterfaceCatalog
