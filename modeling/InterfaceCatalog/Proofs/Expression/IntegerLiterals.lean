import InterfaceCatalog.Proofs.Expression.Places
import Mathlib.Data.Nat.Digits.Defs

namespace InterfaceCatalog

/-- The place of a digit among the digits, in either letter case. -/
def digitPlace (c : Char) : Nat :=
  min ("0123456789abcdef".toList.idxOf c) ("0123456789ABCDEF".toList.idxOf c)

/-- The number that a row of digits writes, the last of them for the ones. -/
def written (radix : Nat) (digits : List Char) : Nat :=
  Nat.ofDigits radix (digits.reverse.map digitPlace)

theorem digitValue_eq {c : Char} (h : isHexDigit c) : digitValue c = digitPlace c := by
  have hplaces : ∀ n < 128, isHexDigit (Char.ofNat n) →
      digitValue (Char.ofNat n) = digitPlace (Char.ofNat n) := by
    decide +kernel
  have hlt : c.toNat < 128 := by
    have hc := isHexDigit_iff.mp h
    omega
  have hc := hplaces c.toNat hlt
  rw [Char.ofNat_toNat] at hc
  exact hc h

/-- The digits from the last one on, which is the one for the ones. -/
theorem foldr_digitValue {radix : Nat} {digits : List Char} (h : ∀ d ∈ digits, isHexDigit d) :
    digits.foldr (fun c n => radix * n + digitValue c) 0 =
      Nat.ofDigits radix (digits.map digitPlace) := by
  induction digits with
  | nil => rfl
  | cons c digits ih =>
    obtain ⟨hc, hdigits⟩ := List.forall_mem_cons.mp h
    rw [List.foldr_cons, List.map_cons, Nat.ofDigits_cons, ih hdigits, digitValue_eq hc,
      Nat.add_comm]

theorem ofDigits_eq_written {radix : Nat} {digits : List Char} (h : ∀ d ∈ digits, isHexDigit d) :
    ofDigits radix digits = written radix digits := by
  unfold ofDigits written
  rw [← foldr_digitValue fun d hd => h d (List.mem_reverse.mp hd), List.foldr_reverse]

/-- The letter in lower case, or in upper case. -/
def InEitherCase (c letter : Char) : Prop :=
  c = letter ∨ c = letter.toUpper

def integerSuffixes : List (List Char × IntegerKind) :=
  [(['u'], .uint), (['l'], .long), (['u', 'l'], .ulong), (['l', 'u'], .ulong), (['l', 'l'], .llong),
    (['u', 'l', 'l'], .ullong), (['l', 'l', 'u'], .ullong)]

/-- What is behind the digits allows some kinds, in this order. -/
inductive Allows : List Char → List IntegerKind → Prop
  | bare : Allows [] [.int, .long, .ulong]
  | letters {suffix letters : List Char} {k : IntegerKind} (hk : (letters, k) ∈ integerSuffixes)
      (hs : List.Forall₂ InEitherCase suffix letters) : Allows suffix [k]

theorem asciiLower_eq_iff {c letter : Char} (h : letter = 'u' ∨ letter = 'l') :
    asciiLower c = letter ↔ InEitherCase c letter := by
  constructor
  · intro hc
    have hletter := isSuffixLetter_of_asciiLower (h.imp_right .inl) hc
    subst hc
    obtain rfl | rfl | rfl | rfl | rfl | rfl := hletter
    · exact .inl rfl
    · exact .inr rfl
    · exact .inl rfl
    · exact .inr rfl
    · exact absurd h (by decide)
    · exact absurd h (by decide)
  · rintro (rfl | rfl) <;> obtain rfl | rfl := h <;> rfl

theorem integerSuffixes_letters : ∀ p ∈ integerSuffixes, ∀ c ∈ p.1, c = 'u' ∨ c = 'l' := by
  simp [integerSuffixes]

theorem suffixKinds_letters : ∀ p ∈ integerSuffixes, suffixKinds p.1 = [p.2] := by
  decide +kernel

theorem map_asciiLower_eq_iff {suffix letters : List Char} (h : ∀ c ∈ letters, c = 'u' ∨ c = 'l') :
    suffix.map asciiLower = letters ↔ List.Forall₂ InEitherCase suffix letters := by
  constructor
  · rintro rfl
    rw [List.forall₂_map_right_iff, List.forall₂_same]
    exact fun c hc => (asciiLower_eq_iff (h _ (List.mem_map_of_mem hc))).mp rfl
  · intro hs
    induction hs with
    | nil => rfl
    | cons hc hs ih =>
      obtain ⟨hletter, h⟩ := List.forall_mem_cons.mp h
      rw [List.map_cons, (asciiLower_eq_iff hletter).mpr hc, ih h]

/-- The kinds of a suffix are the ones that it allows; there are none if it is none of the
suffixes. -/
theorem allows_iff {suffix : List Char} {kinds : List IntegerKind} :
    Allows suffix kinds ↔ suffixKinds suffix = kinds ∧ kinds ≠ [] := by
  constructor
  · intro h
    cases h with
    | bare => exact ⟨rfl, by simp⟩
    | letters hk hs =>
      have hletters := integerSuffixes_letters _ hk
      have hlower := (map_asciiLower_eq_iff hletters).mpr hs
      have hsame := (map_asciiLower_eq_iff hletters).mpr (List.forall₂_same.mpr fun c _ => .inl rfl)
      have hkinds := suffixKinds_letters _ hk
      unfold suffixKinds at hkinds ⊢
      rw [hsame] at hkinds
      rw [hlower, hkinds]
      exact ⟨rfl, List.cons_ne_nil _ _⟩
  · rintro ⟨rfl, hne⟩
    have lower : ∀ {s : String}, String.ofList (suffix.map asciiLower) = s →
        suffix.map asciiLower = s.toList := by
      intro s hs
      rw [← hs, String.toList_ofList]
    have told : ∀ {s : String} {k}, String.ofList (suffix.map asciiLower) = s →
        (s.toList, k) ∈ integerSuffixes → Allows suffix [k] :=
      fun hs hk =>
        .letters hk ((map_asciiLower_eq_iff (integerSuffixes_letters _ hk)).mp (lower hs))
    revert hne
    unfold suffixKinds
    split
    next heq =>
      obtain rfl := List.map_eq_nil_iff.mp (lower heq)
      exact fun _ => .bare
    next heq => exact fun _ => told heq (by decide)
    next heq => exact fun _ => told heq (by decide)
    next heq => exact fun _ => told heq (by decide)
    next heq => exact fun _ => told heq (by decide)
    next heq => exact fun _ => told heq (by decide)
    next heq => exact fun _ => told heq (by decide)
    next heq => exact fun _ => told heq (by decide)
    next => exact fun hne => absurd rfl hne

theorem Allows.unique {suffix : List Char} {kinds kinds' : List IntegerKind}
    (h : Allows suffix kinds) (h' : Allows suffix kinds') : kinds = kinds' :=
  (allows_iff.mp h).1.symm.trans (allows_iff.mp h').1

/-- The first of some kinds that holds a number. -/
theorem findSome?_of? {kinds : List IntegerKind} {number : Nat} {i : Integer} :
    kinds.findSome? (fun k => Integer.of? k number) = some i ↔
      kinds.find? (fun k => k.Holds number) = some i.kind ∧ i.val = number := by
  induction kinds with
  | nil => simp
  | cons k kinds ih =>
    by_cases hk : k.Holds number
    · have hof : Integer.of? k number = some ⟨k, number, hk⟩ :=
        Integer.of?_eq_some_iff.mpr ⟨rfl, rfl⟩
      rw [List.findSome?_cons, hof, List.find?_cons_of_pos (by simpa using hk)]
      constructor
      · rintro ⟨⟩
        exact ⟨rfl, rfl⟩
      · rintro ⟨hkind, hval⟩
        rw [← Integer.of?_eq_some_iff.mpr ⟨(Option.some.inj hkind).symm, hval⟩, hof]
    · rw [List.findSome?_cons, Integer.of?_eq_none_iff.mpr hk,
        List.find?_cons_of_neg (by simpa using hk)]
      exact ih

/-- An integer in front of `rest`: its digits are as many as there are, and so are the
letters and digits behind them. Behind the digits of a decimal number stands neither a
fraction nor an exponent. -/
inductive Numeral.IsInteger : Numeral → Prop
  | decimal {digits suffix rest : List Char} (hdigits : digits ≠ [])
      (h : ∀ d ∈ digits, isAsciiDigit d)
      (hzero : digits = ['0'] → ∀ c ∈ (suffix ++ rest).head?, c ≠ 'x' ∧ c ≠ 'X')
      (hend : Quiet (suffix ++ rest)) (hs : ∀ c ∈ suffix, isAlphanumeric c)
      (hr : ∀ c ∈ rest.head?, ¬ isAlphanumeric c) :
      IsInteger ⟨false, false, [], digits, suffix, rest⟩
  | hexadecimal {x : Char} {digits suffix rest : List Char} (hx : x = 'x' ∨ x = 'X')
      (h : ∀ d ∈ digits, isHexDigit d) (hend : ∀ c ∈ (suffix ++ rest).head?, ¬ isHexDigit c)
      (hs : ∀ c ∈ suffix, isAlphanumeric c) (hr : ∀ c ∈ rest.head?, ¬ isAlphanumeric c) :
      IsInteger ⟨true, false, ['0', x], digits, suffix, rest⟩

def Numeral.radix (n : Numeral) : Nat :=
  if n.hexadecimal then 16 else 10

namespace Numeral.IsInteger

variable {n : Numeral}

theorem scan (h : n.IsInteger) : scanNumeral (n.text ++ n.rest) = n := by
  cases h with
  | @decimal digits suffix rest hdigits h hzero hend hs hr =>
    have hdigit : ∀ c ∈ (suffix ++ rest).head?, ¬ isAsciiDigit c := fun c hc => (hend c hc).1
    have hpoint := scanFraction_of_quiet fun c hc => (hend c hc).2.1
    have hmark := scanExponent_of_quiet hend
    have hdecimal : scanNumeral (digits ++ (suffix ++ rest)) =
        scanDecimal (digits ++ (suffix ++ rest)) := by
      obtain ⟨x, cs, hcs, hx, -⟩ | hscan := scanNumeral_cases (digits ++ (suffix ++ rest))
      · -- a hexadecimal mark is no digit, and it does not stand behind a single zero
        obtain ⟨d, ds, rfl⟩ := List.exists_cons_of_ne_nil hdigits
        obtain ⟨rfl, htail⟩ := List.cons.inj hcs
        cases ds with
        | nil =>
          have htail : suffix ++ rest = x :: cs := htail
          have hmark := hzero rfl x (by rw [htail]; rfl)
          exact absurd hx (by simp [hmark])
        | cons e ds =>
          obtain ⟨rfl, -⟩ := List.cons.inj htail
          have hdigit := h e (by simp)
          obtain rfl | rfl := hx <;> exact absurd hdigit (by decide)
      · exact hscan
    simp only [text, List.nil_append, List.append_assoc]
    rw [hdecimal]
    simp only [scanDecimal, takeWhile_append_stop h hdigit, dropWhile_append_stop h hdigit,
      hpoint, hmark, takeWhile_append_stop hs hr, dropWhile_append_stop hs hr, List.append_nil,
      List.isEmpty_nil, Bool.not_true]
  | @hexadecimal x digits suffix rest hx h hend hs hr =>
    simp only [text, List.cons_append, List.nil_append, List.append_assoc]
    rw [scanNumeral_hexadecimal hx]
    simp only [scanHexadecimal, takeWhile_append_stop h hend, dropWhile_append_stop h hend,
      takeWhile_append_stop hs hr, dropWhile_append_stop hs hr]

theorem digits_hexadecimal (h : n.IsInteger) : ∀ d ∈ n.digits, isHexDigit d := by
  cases h with
  | decimal hdigits h => exact fun d hd => isHexDigit_iff.mpr (.inl (isAsciiDigit_iff.mp (h d hd)))
  | hexadecimal hx h => exact h

theorem head (h : n.IsInteger) : ∃ c w, n.text = c :: w ∧ isAsciiDigit c := by
  cases h with
  | @decimal digits suffix rest hdigits h =>
    obtain ⟨d, ds, rfl⟩ := List.exists_cons_of_ne_nil hdigits
    exact ⟨d, ds ++ suffix, rfl, h d (List.mem_cons_self ..)⟩
  | hexadecimal hx h => exact ⟨'0', _, rfl, rfl⟩

/-- The value of an integer, if it has one. -/
theorem value?_eq_some_iff (h : n.IsInteger) {v : Value} : n.value? = some v ↔
    n.digits ≠ [] ∧ ∃ kinds, ∃ i : Integer, Allows n.suffix kinds ∧
      kinds.find? (fun k => k.Holds (written n.radix n.digits)) = some i.kind ∧
        i.val = written n.radix n.digits ∧ v = .integer i := by
  have hfloating : n.floating = false := by
    cases h <;> rfl
  have hnumber : ofDigits n.radix n.digits = written n.radix n.digits :=
    ofDigits_eq_written h.digits_hexadecimal
  have hvalue : n.value? = if n.digits = [] then none
      else (suffixInteger? n.suffix (written n.radix n.digits)).map .integer := by
    unfold value? suffixInteger?
    rw [← hnumber]
    simp only [hfloating, Bool.false_eq_true, if_false, List.isEmpty_iff]
    rfl
  rw [hvalue]
  by_cases hdigits : n.digits = []
  · simp [hdigits]
  rw [if_neg hdigits, Option.map_eq_some_iff]
  constructor
  · rintro ⟨i, hi, rfl⟩
    obtain ⟨hfind, hval⟩ := findSome?_of?.mp hi
    have hne : suffixKinds n.suffix ≠ [] := by
      intro hnil
      rw [hnil] at hfind
      cases hfind
    exact ⟨hdigits, _, i, allows_iff.mpr ⟨rfl, hne⟩, hfind, hval, rfl⟩
  · rintro ⟨-, kinds, i, hkinds, hfind, hval, rfl⟩
    obtain ⟨rfl, -⟩ := allows_iff.mp hkinds
    exact ⟨i, findSome?_of?.mpr ⟨hfind, hval⟩, rfl⟩

/-- Why an integer has no value. -/
theorem value?_eq_none_iff (h : n.IsInteger) : n.value? = none ↔
    n.digits = [] ∨ (∀ kinds, ¬ Allows n.suffix kinds) ∨
      ∃ kinds, Allows n.suffix kinds ∧ ∀ k ∈ kinds, ¬ k.Holds (written n.radix n.digits) := by
  constructor
  · intro hv
    by_contra hnot
    push Not at hnot
    obtain ⟨hdigits, ⟨kinds, hkinds⟩, hholds⟩ := hnot
    have hfound : (kinds.find? fun k => k.Holds (written n.radix n.digits)).isSome := by
      obtain ⟨k, hk, hkholds⟩ := hholds kinds hkinds
      exact List.find?_isSome.mpr ⟨k, hk, by simpa using hkholds⟩
    obtain ⟨k, hk⟩ := Option.isSome_iff_exists.mp hfound
    have hi : k.Holds (written n.radix n.digits) := by simpa using List.find?_some hk
    have hsome := h.value?_eq_some_iff.mpr ⟨hdigits, kinds, ⟨k, _, hi⟩, hkinds, hk, rfl, rfl⟩
    exact absurd (hv.symm.trans hsome) (by simp)
  · intro hnone
    cases hv : n.value? with
    | none => rfl
    | some v =>
      obtain ⟨hdigits, kinds, i, hkinds, hfind, hval, -⟩ := h.value?_eq_some_iff.mp hv
      obtain hempty | hno | ⟨kinds', hkinds', hholds⟩ := hnone
      · exact absurd hempty hdigits
      · exact absurd hkinds (hno kinds)
      · obtain rfl := hkinds.unique hkinds'
        exact absurd (hval ▸ i.holds) (hholds i.kind (List.mem_of_find?_eq_some hfind))

end Numeral.IsInteger

theorem scanToken_digit {c : Char} (hc : isAsciiDigit c) (offset : Nat) (cs : List Char) :
    scanToken offset c cs = match (scanNumeral (c :: cs)).value? with
      | some v =>
        .ok ⟨.literal (.value v), (scanNumeral (c :: cs)).text, (scanNumeral (c :: cs)).rest⟩
      | none => .error (.invalidNumber (String.ofList (scanNumeral (c :: cs)).text) offset) := by
  have hquote : ¬ (c = '"' ∨ c = '\x27') := by
    rintro (rfl | rfl) <;> exact absurd hc (by decide)
  have hsymbol : scanSymbol? (c :: cs) = none := scanSymbol?_eq_none_of_head (.inr (.inl hc))
  cases hv : (scanNumeral (c :: cs)).value? with
  | none => simp only [scanToken, hsymbol, hquote, hc, if_false, if_true, hv]
  | some v => simp only [scanToken, hsymbol, hquote, hc, if_false, if_true, hv]

/-- An integer at the head of a text is scanned as the number that its digits write, in the first of
the kinds that its suffix allows and that hold the number. It is rejected, with its suffix, if its
digits are missing, if the suffix allows no kind, or if none of the kinds holds the number. -/
theorem scanToken_integer {n : Numeral} (hn : n.IsInteger) {c : Char} {cs : List Char}
    (hcs : n.text ++ n.rest = c :: cs) (offset : Nat) :
    (∀ l, scanToken offset c cs = .ok l ↔ n.digits ≠ [] ∧ ∃ kinds, ∃ i : Integer,
      Allows n.suffix kinds ∧
      kinds.find? (fun k => k.Holds (written n.radix n.digits)) = some i.kind ∧
        i.val = written n.radix n.digits ∧ l = ⟨.literal (.value (.integer i)), n.text, n.rest⟩) ∧
    (∀ e, scanToken offset c cs = .error e ↔ e = .invalidNumber (String.ofList n.text) offset ∧
      (n.digits = [] ∨ (∀ kinds, ¬ Allows n.suffix kinds) ∨
        ∃ kinds, Allows n.suffix kinds ∧ ∀ k ∈ kinds, ¬ k.Holds (written n.radix n.digits))) ∧
    ∀ text ts, Visits text ts offset c cs → ∃ stream, (tokens text).Starts ts stream ∧
      match scanToken offset c cs with
      | .error e => stream = .fault e
      | .ok l => ∃ rest, stream = .token l.token offset rest := by
  have hc : isAsciiDigit c := by
    obtain ⟨d, w, htext, hd⟩ := hn.head
    rw [htext] at hcs
    exact (List.cons.inj hcs).1 ▸ hd
  have hscan := scanToken_digit hc offset cs
  rw [← hcs, hn.scan] at hscan
  refine ⟨fun l => ?_, fun e => ?_, fun text ts hvisits => hvisits.starts⟩
  · rw [hscan]
    cases hv : n.value? with
    | none =>
      refine iff_of_false (by simp) ?_
      rintro ⟨hdigits, kinds, i, hkinds, hfind, hval, -⟩
      exact absurd (hn.value?_eq_some_iff.mpr ⟨hdigits, kinds, i, hkinds, hfind, hval, rfl⟩)
        (by simp [hv])
    | some v =>
      constructor
      · intro hl
        obtain rfl := Except.ok.inj hl
        obtain ⟨hdigits, kinds, i, hkinds, hfind, hval, rfl⟩ := hn.value?_eq_some_iff.mp hv
        exact ⟨hdigits, kinds, i, hkinds, hfind, hval, rfl⟩
      · rintro ⟨hdigits, kinds, i, hkinds, hfind, hval, rfl⟩
        have hi := hn.value?_eq_some_iff.mpr ⟨hdigits, kinds, i, hkinds, hfind, hval, rfl⟩
        obtain rfl := Option.some.inj (hv.symm.trans hi)
        rfl
  · rw [hscan, ← hn.value?_eq_none_iff]
    cases hv : n.value? with
    | none => simp [eq_comm]
    | some v => simp

/-- The least number without a suffix that neither of the signed kinds holds. -/
theorem scanToken_integer_bare :
    scanToken 3 '9' "223372036854775808)".toList =
      .ok ⟨.literal (.value (.integer ⟨.ulong, 9223372036854775808, by decide⟩)),
        "9223372036854775808".toList, [')']⟩ := by
  have hn : Numeral.IsInteger ⟨false, false, [], "9223372036854775808".toList, [], [')']⟩ :=
    .decimal (by decide +kernel) (List.all_eq_true.mp (by decide +kernel)) (by decide +kernel)
      (forall_head_cons (by decide +kernel)) (List.forall_mem_nil _)
        (forall_head_cons (by decide +kernel))
  have hcs : "9223372036854775808".toList ++ [')'] = '9' :: "223372036854775808)".toList := by
    decide +kernel
  exact ((scanToken_integer hn hcs 3).1 _).mpr
    ⟨by decide +kernel, _, ⟨.ulong, 9223372036854775808, by decide⟩, .bare, by decide +kernel,
      by decide +kernel, rfl⟩

end InterfaceCatalog
