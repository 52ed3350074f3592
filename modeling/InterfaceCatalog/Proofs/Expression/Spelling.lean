import InterfaceCatalog.Expression.Token
import InterfaceCatalog.Proofs.Text.Character
import InterfaceCatalog.Proofs.Expression.Grammar

namespace InterfaceCatalog

def symbols : List (Token × List Char) :=
  [(.opening, ['(']), (.closing, [')']), (.plus, ['+']), (.minus, ['-']), (.prefixed .not, ['!']),
    (.prefixed .bitNot, ['~']), (.binary .mul, ['*']), (.binary .div, ['/']), (.binary .mod, ['%']),
    (.binary .equal, ['=', '=']), (.binary .unequal, ['!', '=']), (.binary .greater, ['>']),
    (.binary .less, ['<']), (.binary .greaterEqual, ['>', '=']), (.binary .lessEqual, ['<', '=']),
    (.binary .and, ['&', '&']), (.binary .or, ['|', '|']), (.binary .bitAnd, ['&']),
    (.binary .bitOr, ['|']), (.binary .bitXor, ['^']), (.binary .shiftLeft, ['<', '<']),
    (.binary .shiftRight, ['>', '>'])]

/-- What may follow the first character of a name. A dot stands in front of a further segment. -/
inductive NameTail : List Char → Prop
  | nil : NameTail []
  | part {c : Char} {cs : List Char} (hc : isNamePart c) (h : NameTail cs) : NameTail (c :: cs)
  | dot {c : Char} {cs : List Char} (hc : isNameStart c) (h : NameTail (c :: cs)) :
      NameTail ('.' :: c :: cs)

inductive IsName : List Char → Prop
  | mk {c : Char} {cs : List Char} (hc : isNameStart c) (h : NameTail cs) : IsName (c :: cs)

/-- The characters between two quotes stand for a content. -/
inductive Encodes (quote : Char) : List Char → List Char → Prop
  | nil : Encodes quote [] []
  | plain {c : Char} {body content : List Char} (hquote : c ≠ quote) (hslash : c ≠ '\\')
      (h : Encodes quote body content) : Encodes quote (c :: body) (c :: content)
  | escape {e c : Char} {body content : List Char} (he : unescape? e = some c)
      (h : Encodes quote body content) : Encodes quote ('\\' :: e :: body) (c :: content)

def suffixInteger? (suffix : List Char) (number : Nat) : Option Integer :=
  (suffixKinds suffix).findSome? fun k => Integer.of? k number

/-- A point and digits after it, or nothing. -/
inductive IsFraction : List Char → Prop
  | nil : IsFraction []
  | point {ds : List Char} (h : ∀ d ∈ ds, isAsciiDigit d) : IsFraction ('.' :: ds)

/-- A mark, a sign that may be missing and digits, or nothing. -/
inductive IsExponent : List Char → Prop
  | nil : IsExponent []
  | mark {m : Char} {sign ds : List Char} (hm : m = 'e' ∨ m = 'E')
      (hsign : sign = [] ∨ sign = ['-'] ∨ sign = ['+']) (hds : ds ≠ [])
      (h : ∀ d ∈ ds, isAsciiDigit d) :
      IsExponent (m :: (sign ++ ds))

/-- The number has a fraction or an exponent. -/
inductive IsFloating : List Char → Prop
  | mk {whole fraction exponent : List Char} (hwhole : whole ≠ []) (h : ∀ d ∈ whole, isAsciiDigit d)
      (hf : IsFraction fraction) (he : IsExponent exponent) (hne : fraction ++ exponent ≠ []) :
      IsFloating (whole ++ fraction ++ exponent)

/-- The value of a number. -/
inductive Denotes : List Char → Value → Prop
  | decimal {digits suffix : List Char} {n : Integer} (hdigits : digits ≠ [])
      (h : ∀ d ∈ digits, isAsciiDigit d)
      (hn : suffixInteger? suffix (ofDigits 10 digits) = some n) :
      Denotes (digits ++ suffix) (.integer n)
  | hexadecimal {x : Char} {digits suffix : List Char} {n : Integer} (hx : x = 'x' ∨ x = 'X')
      (hdigits : digits ≠ []) (h : ∀ d ∈ digits, isHexDigit d)
      (hn : suffixInteger? suffix (ofDigits 16 digits) = some n) :
      Denotes ('0' :: x :: (digits ++ suffix)) (.integer n)
  | double {text : List Char} {d : Decimal} (h : IsFloating text)
      (hd : Decimal.read? text = some d) :
      Denotes text (.double (d.toBinary _ false))
  | float {text : List Char} {mark : Char} {d : Decimal} (h : IsFloating text)
      (hd : Decimal.read? text = some d) (hm : mark = 'f' ∨ mark = 'F') :
      Denotes (text ++ [mark]) (.float (d.toBinary _ false))

inductive Spells : Token → List Char → Prop
  | symbol {t : Token} {w : List Char} (h : (t, w) ∈ symbols) : Spells t w
  | name {w : List Char} (h : IsName w) : Spells (.literal (Literal.ofName w)) w
  | string {body content : List Char} (h : Encodes '"' body content) :
      Spells (.literal (.value (.string (String.ofList content)))) ('"' :: (body ++ ['"']))
  | char {body : List Char} {c : Char} (h : Encodes '\x27' body [c]) :
      Spells (.literal (.value (.char c))) ('\x27' :: (body ++ ['\x27']))
  | number {w : List Char} {v : Value} (h : Denotes w v) : Spells (.literal (.value v)) w

/-- No more than `w` of the text spells a token at its head. -/
def Longest (cs w : List Char) : Prop :=
  ∀ {t w'}, Spells t w' → w' <+: cs → w'.length ≤ w.length

/-- The longest token at the head of a text, in front of `rest`. -/
def Munch (cs : List Char) (t : Token) (rest : List Char) : Prop :=
  ∃ w, Spells t w ∧ cs = w ++ rest ∧ Longest cs w

/-- The whole of a text splits into tokens. -/
inductive Splits : List Char → List Token → Prop
  | finish {blanks : List Char} (h : ∀ c ∈ blanks, isBlank c) : Splits blanks []
  | token {blanks cs rest : List Char} {t : Token} {ts : List Token}
      (hblanks : ∀ c ∈ blanks, isBlank c) (ht : Munch cs t rest) (hts : Splits rest ts) :
      Splits (blanks ++ cs) (t :: ts)

theorem symbols_head : ∀ p ∈ symbols, ∃ c cs, p.2 = c :: cs ∧ isBlank c = false ∧
    isAlphanumeric c = false ∧ isNameStart c = false ∧ c ≠ '.' ∧ c ≠ '"' ∧ c ≠ '\x27' := by
  have head : ∀ p ∈ symbols, p.2.head?.any fun c =>
    !isBlank c && !isAlphanumeric c && !isNameStart c &&
      c != '.' && c != '"' && c != '\x27' := by
    decide
  intro p hp
  have h := head p hp
  cases hw : p.2 with
  | nil => simp [hw] at h
  | cons c cs =>
    simp only [hw, List.head?_cons, Option.any_some, Bool.and_eq_true, Bool.not_eq_true',
      bne_iff_ne] at h
    obtain ⟨⟨⟨⟨⟨hblank, halnum⟩, hstart⟩, hdot⟩, hquote⟩, hmark⟩ := h
    exact ⟨c, cs, rfl, hblank, halnum, hstart, hdot, hquote, hmark⟩

theorem symbols_unique : ∀ p ∈ symbols, ∀ q ∈ symbols, p.2 = q.2 → p = q := by
  decide

theorem symbols_real : ∀ p ∈ symbols, p.1.prefix? ≠ some .invalid := by
  decide

theorem not_isNameStart_of_isAsciiDigit {c : Char} (h : isAsciiDigit c) : ¬ isNameStart c := by
  have hc := isAsciiDigit_iff.mp h
  intro hstart
  simp only [isNameStart, Bool.or_eq_true, beq_iff_eq] at hstart
  obtain halpha | rfl := hstart
  · exact not_isAlphabetic_of_isAsciiDigit h halpha
  · revert hc
    decide

theorem isNamePart_of_isNameStart {c : Char} (h : isNameStart c) : isNamePart c := by
  simp only [isNameStart, isNamePart, Bool.or_eq_true] at h ⊢
  exact h.imp_left isAlphanumeric_of_isAlphabetic

theorem not_isBlank_of_isNameStart {c : Char} (h : isNameStart c) : ¬ isBlank c := by
  intro hblank
  simp only [isNameStart, Bool.or_eq_true, beq_iff_eq] at h
  obtain halpha | rfl := h
  · exact not_isAlphanumeric_of_isBlank hblank (isAlphanumeric_of_isAlphabetic halpha)
  · revert hblank
    decide

theorem IsFloating.head {w : List Char} (h : IsFloating w) :
    ∃ c cs, w = c :: cs ∧ isAsciiDigit c := by
  obtain ⟨hwhole, h, hf, he, hne⟩ := h
  obtain ⟨c, cs, rfl⟩ := List.exists_cons_of_ne_nil hwhole
  exact ⟨c, _, rfl, h c (List.mem_cons_self ..)⟩

theorem Denotes.head {w : List Char} {v : Value} (h : Denotes w v) :
    ∃ c cs, w = c :: cs ∧ isAsciiDigit c := by
  cases h with
  | decimal hdigits h hn =>
    obtain ⟨c, cs, rfl⟩ := List.exists_cons_of_ne_nil hdigits
    exact ⟨c, _, rfl, h c (List.mem_cons_self ..)⟩
  | hexadecimal hx hdigits h hn => exact ⟨'0', _, rfl, by decide⟩
  | double h hd => exact h.head
  | float h hd hm =>
    obtain ⟨c, cs, rfl, hc⟩ := h.head
    exact ⟨c, _, rfl, hc⟩

/-- A token starts with no blank and no point, and only literals start with a letter or a digit. -/
theorem Spells.head {t : Token} {w : List Char} (h : Spells t w) :
    ∃ c cs, w = c :: cs ∧ ¬ isBlank c ∧ c ≠ '.' ∧ (isAlphanumeric c → t.IsLiteral) := by
  cases h with
  | symbol h =>
    obtain ⟨c, cs, hw, hblank, halnum, -, hdot, -⟩ := symbols_head _ h
    exact ⟨c, cs, hw, by simp [hblank], hdot, by simp [halnum]⟩
  | name h =>
    obtain ⟨hc, h⟩ := h
    refine ⟨_, _, rfl, not_isBlank_of_isNameStart hc, ?_, fun _ => trivial⟩
    rintro rfl
    revert hc
    decide
  | string h => exact ⟨'"', _, rfl, by decide, by decide, fun _ => trivial⟩
  | char h => exact ⟨'\x27', _, rfl, by decide, by decide, fun _ => trivial⟩
  | number h =>
    obtain ⟨c, cs, hw, hc⟩ := h.head
    have halnum := isAlphanumeric_of_isAsciiDigit hc
    refine ⟨c, cs, hw, fun hblank => not_isAlphanumeric_of_isBlank hblank halnum, ?_,
      fun _ => trivial⟩
    rintro rfl
    revert hc
    decide

theorem Munch.head {cs rest : List Char} {t : Token} (h : Munch cs t rest) :
    ∃ c ds, cs = c :: ds ∧ ¬ isBlank c ∧ rest.length < cs.length := by
  obtain ⟨w, hw, rfl, -⟩ := h
  obtain ⟨c, w, rfl, hc, -⟩ := hw.head
  refine ⟨c, w ++ rest, rfl, hc, ?_⟩
  simp only [List.length_append, List.length_cons]
  omega

theorem Spells.real {t : Token} {w : List Char} (h : Spells t w) : t.Real := by
  cases h with
  | symbol h => exact symbols_real _ h
  | name | string | char | number => simp [Token.Real, Token.prefix?]

theorem Splits.real {cs : List Char} {ts : List Token} (h : Splits cs ts) :
    ∀ t ∈ ts, t.Real := by
  induction h with
  | finish h => simp
  | token hblanks ht hts ih =>
    obtain ⟨w, hw, -⟩ := ht
    exact List.forall_mem_cons.mpr ⟨hw.real, ih⟩

/-- A number can end in front of the text. -/
def Ends (rest : List Char) : Prop :=
  ∀ c ∈ rest.head?, ¬ isAlphanumeric c ∧ c ≠ '.'

/-- What follows a literal in an expression starts with a blank or with a symbol. -/
theorem Splits.ends {cs : List Char} {ts : List Token} (h : Splits cs ts)
    (hts : ∀ t ∈ ts.head?, ¬ t.IsLiteral) : Ends cs := by
  have blank : ∀ {c}, isBlank c → ¬ isAlphanumeric c ∧ c ≠ '.' := by
    intro c hc
    refine ⟨not_isAlphanumeric_of_isBlank hc, ?_⟩
    rintro rfl
    revert hc
    decide
  intro c hc
  cases h with
  | finish hblanks => exact blank (hblanks c (List.mem_of_mem_head? hc))
  | @token blanks ds rest t ts hblanks ht hrest =>
    cases blanks with
    | cons b blanks =>
      cases hc
      exact blank (hblanks _ (List.mem_cons_self ..))
    | nil =>
      obtain ⟨w, hw, rfl, -⟩ := ht
      obtain ⟨d, w, rfl, -, hdot, hliteral⟩ := hw.head
      cases hc
      exact ⟨fun halnum => hts t rfl (hliteral halnum), hdot⟩

end InterfaceCatalog
