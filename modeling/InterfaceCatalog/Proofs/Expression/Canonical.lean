import InterfaceCatalog.Proofs.Expression.FloatText
import InterfaceCatalog.Proofs.Expression.Lexing

namespace InterfaceCatalog

/-- Values whose text is a literal of its own: no sign stands in front of a number,
not even of a zero. -/
def Value.IsPlain : Value → Prop
  | .integer n => n.kind.isSigned → 0 ≤ n.val
  | .float x => ∃ i, x = .finite false i
  | .double x => ∃ i, x = .finite false i
  | .string _ | .char _ | .bool _ | .null => True

/-- A name is plain if it is one for the scanner, and no word of the language. -/
def Literal.IsPlain : Literal → Prop
  | .value v => v.IsPlain
  | .name n => IsName n.toList ∧ n ≠ "true" ∧ n ≠ "false" ∧ n ≠ "null"

/-- Trees of plain literals and of operators that are in the language. -/
def Tree.IsPlain : Tree → Prop
  | .literal l => l.IsPlain
  | .unary o t => o ≠ .invalid ∧ t.IsPlain
  | .binary o s t => o ≠ .invalid ∧ s.IsPlain ∧ t.IsPlain

theorem Integer.denotes {n : Integer} (h : n.kind.isSigned → 0 ≤ n.val) :
    Denotes n.text.toList (.integer n) := by
  have hval : 0 ≤ n.val := by
    by_cases hsigned : n.kind.isSigned
    · exact h hsigned
    · have hleast : n.kind.least = 0 := if_neg hsigned
      have hholds := n.holds.1
      omega
  have htext : n.text.toList = Nat.toDigits 10 n.val.natAbs ++ n.kind.suffix.toList := by
    have hneg : ¬ n.val < 0 := by omega
    unfold text
    rw [String.toList_append, toList_toString_int, if_neg hneg, List.nil_append]
  have hkind : ∀ k : IntegerKind, (suffixKinds k.suffix.toList).head? = some k := by
    intro k
    cases k <;> decide
  have hself : Integer.of? n.kind (n.val.natAbs : Int) = some n :=
    Integer.of?_eq_some_iff.mpr ⟨rfl, by omega⟩
  rw [htext]
  refine .decimal Nat.toDigits_ne_nil (fun d hd => isAsciiDigit_of_mem_toDigits hd) ?_
  unfold suffixInteger?
  rw [ofDigits_toDigits]
  obtain ⟨kinds, hkinds⟩ := List.head?_eq_some_iff.mp (hkind n.kind)
  rw [hkinds, List.findSome?_cons, hself]

theorem Binary.readsBack {f : FloatFormat} (hf : f.InReach) (i : Fin f.top) :
    IsFloating (Binary.finite false i).text.toList ∧
      ∃ d, Decimal.read? (Binary.finite false i).text.toList = some d ∧
        d.toBinary f false = .finite false i := by
  obtain ⟨hfloating, d, hd, hnearest⟩ := (Decimal.shortest f i).text_readsBack
  have htext : (Binary.finite false i).text.toList = (Decimal.shortest f i).text.toList := by
    unfold text
    simp
  rw [htext]
  exact ⟨hfloating, d, hd, Decimal.toBinary_shortest hf (hnearest f)⟩

theorem Encodes.escapeChar {quote : Char} (hq : quote = '"' ∨ quote = '\x27')
    {body content : List Char} (h : Encodes quote body content) (c : Char) :
    Encodes quote (InterfaceCatalog.escapeChar quote c ++ body) (c :: content) := by
  have hquote : unescape? quote = some quote := by
    obtain rfl | rfl := hq <;> rfl
  unfold InterfaceCatalog.escapeChar
  split
  next hc => subst hc; exact .escape rfl h
  next hslash =>
    repeat' split
    · next hc => subst hc; exact .escape rfl h
    · next hc => subst hc; exact .escape rfl h
    · next hc => subst hc; exact .escape rfl h
    · next hc => subst hc; exact .escape rfl h
    · next hc => exact .escape (hc ▸ hquote) h
    · next hc => exact .plain hc hslash h

theorem encodes_flatMap {quote : Char} (hq : quote = '"' ∨ quote = '\x27') (content : List Char) :
    Encodes quote (content.flatMap (escapeChar quote)) content := by
  induction content with
  | nil => exact .nil
  | cons c content ih =>
    rw [List.flatMap_cons]
    exact ih.escapeChar hq c

theorem ofName_eq_name {n : String} (htrue : n ≠ "true") (hfalse : n ≠ "false")
    (hnull : n ≠ "null") : Literal.ofName n.toList = .name n := by
  unfold Literal.ofName
  rw [String.ofList_toList]
  split
  next => exact absurd rfl htrue
  next => exact absurd rfl hfalse
  next => exact absurd rfl hnull
  next => rfl

theorem isName_of_all {c : Char} {cs : List Char} (hc : isNameStart c) (hcs : cs.all isNamePart) :
    IsName (c :: cs) := by
  refine .mk hc ?_
  clear hc
  induction cs with
  | nil => exact .nil
  | cons d cs ih =>
    rw [List.all_cons, Bool.and_eq_true] at hcs
    exact .part hcs.1 (ih hcs.2)

theorem Literal.spells {l : Literal} (h : l.IsPlain) : Spells (.literal l) l.text.toList := by
  cases l with
  | name n =>
    obtain ⟨hname, htrue, hfalse, hnull⟩ := h
    have hspells := Spells.name hname
    rw [ofName_eq_name htrue hfalse hnull] at hspells
    exact hspells
  | value v =>
    cases v with
    | integer n => exact .number (Integer.denotes h)
    | float x =>
      obtain ⟨i, rfl⟩ := h
      obtain ⟨hfloating, d, hd, hround⟩ := Binary.readsBack FloatFormat.single_inReach i
      have hnumber := Denotes.float hfloating hd (.inl rfl : 'f' = 'f' ∨ 'f' = 'F')
      rw [hround] at hnumber
      have htext : (Literal.value (.float (.finite false i))).text.toList =
          (Binary.finite false i).text.toList ++ ['f'] := String.toList_append ..
      exact htext ▸ .number hnumber
    | double x =>
      obtain ⟨i, rfl⟩ := h
      obtain ⟨hfloating, d, hd, hround⟩ := Binary.readsBack FloatFormat.double_inReach i
      have hnumber := Denotes.double hfloating hd
      rw [hround] at hnumber
      exact .number hnumber
    | string s =>
      have hspells := Spells.string (encodes_flatMap (.inl rfl) s.toList)
      rw [String.ofList_toList] at hspells
      have htext : (Literal.value (.string s)).text.toList =
          '"' :: (s.toList.flatMap (escapeChar '"') ++ ['"']) := String.toList_ofList
      exact htext ▸ hspells
    | char c =>
      have hspells := Spells.char (encodes_flatMap (.inr rfl) [c])
      have htext : (Literal.value (.char c)).text.toList =
          '\x27' :: ([c].flatMap (escapeChar '\x27') ++ ['\x27']) := String.toList_ofList
      exact htext ▸ hspells
    | bool b =>
      cases b with
      | true =>
        exact Spells.name (w := ['t', 'r', 'u', 'e']) (isName_of_all (by decide) (by decide))
      | false =>
        exact Spells.name (w := ['f', 'a', 'l', 's', 'e']) (isName_of_all (by decide) (by decide))
    | null => exact Spells.name (w := ['n', 'u', 'l', 'l']) (isName_of_all (by decide) (by decide))

/-- What follows an operand: nothing, a blank or a closing parenthesis. -/
def Closes (rest : List Char) : Prop :=
  ∀ c ∈ rest.head?, c = ' ' ∨ c = ')'

theorem Closes.ends {rest : List Char} (h : Closes rest) : Ends rest := by
  intro c hc
  obtain rfl | rfl := h c hc <;> decide

/-- A literal is taken whole in front of what follows an operand. -/
theorem Spells.munch_literal {l : Literal} {w rest : List Char} (h : Spells (.literal l) w)
    (hr : Closes rest) : Munch (w ++ rest) (.literal l) rest := by
  cases h with
  | symbol h => simp [symbols] at h
  | @name w h =>
    obtain @⟨c, cs, hc, htail⟩ := h
    have hstop : ∀ d ∈ rest.head?, ¬ isNamePart d ∧ d ≠ '.' := by
      intro d hd
      obtain rfl | rfl := hr d hd <;> decide
    have hlong : Longest (c :: (cs ++ rest)) (c :: (scanName (cs ++ rest)).1) := longest_name hc
    rw [scanName_stop htail hstop] at hlong
    exact ⟨c :: cs, .name (.mk hc htail), rfl, hlong⟩
  | @string body content h =>
    have hscan : scanToken 0 '"' (body ++ ['"'] ++ rest) = .ok ⟨_, _, rest⟩ :=
      scanToken_quotation (.inl rfl) h rfl (by simp)
    exact scanToken_sound hscan
  | @char body c h =>
    have hscan : scanToken 0 '\x27' (body ++ ['\x27'] ++ rest) = .ok ⟨_, _, rest⟩ :=
      scanToken_quotation (.inr rfl) h rfl (by simp)
    exact scanToken_sound hscan
  | number h =>
    obtain ⟨c, cs, rfl, -⟩ := h.head
    have hscan : scanToken 0 c (cs ++ rest) = .ok ⟨_, _, rest⟩ := scanToken_number h rfl hr.ends
    exact scanToken_sound hscan

/-- No operator goes on with the text. -/
def Apart (rest : List Char) : Prop :=
  ∀ c ∈ rest.head?, c ∉ ['=', '&', '|', '<', '>']

theorem apart_cons {c : Char} {cs : List Char} (h : c ∉ ['=', '&', '|', '<', '>']) :
    Apart (c :: cs) := by
  intro d hd
  cases hd
  exact h

theorem Closes.apart {rest : List Char} (h : Closes rest) : Apart rest := by
  intro c hc
  obtain rfl | rfl := h c hc <;> decide

/-- A symbol is taken whole in front of what no operator goes on with. -/
theorem munch_symbol {t : Token} {w rest : List Char} (h : (t, w) ∈ symbols) (hr : Apart rest) :
    Munch (w ++ rest) t rest := by
  have hlength : ∀ p ∈ symbols, p.2.length ≤ 2 := by decide
  have hsecond : ∀ p ∈ symbols, ∀ c ∈ p.2.tail, c ∈ ['=', '&', '|', '<', '>'] := by
    simp [symbols]
  obtain ⟨t', n, hscan, hle⟩ := scanSymbol?_longest h (List.prefix_append w rest)
  obtain ⟨hsymbol, hn, -⟩ := scanSymbol?_sound hscan
  obtain ⟨c, cs, hw, -⟩ := symbols_head _ h
  obtain rfl : w = c :: cs := hw
  have hshort := hlength _ hsymbol
  rw [List.length_take, Nat.min_eq_left hn] at hshort
  have hexact : n = (c :: cs).length := by
    by_contra hne
    simp only [List.length_cons] at hle hne
    obtain rfl : n = 2 := by omega
    obtain rfl := List.eq_nil_of_length_eq_zero (show cs.length = 0 by omega)
    cases rest with
    | nil => simp at hn
    | cons d rest => exact hr d rfl (hsecond _ hsymbol d (by simp))
  have hlong : Longest (c :: (cs ++ rest)) ((c :: cs ++ rest).take n) := longest_symbol hscan
  rw [hexact, List.take_left] at hsymbol hlong
  obtain rfl : t' = t := congrArg Prod.fst (symbols_unique _ hsymbol _ h rfl)
  exact ⟨c :: cs, .symbol hsymbol, rfl, hlong⟩

def UnaryOperator.token : UnaryOperator → Token
  | .minus => .minus
  | .plus => .plus
  | o => .prefixed o

def BinaryOperator.token : BinaryOperator → Token
  | .add => .plus
  | .sub => .minus
  | o => .binary o

namespace Tree

def encloseTokens (compound : Bool) (ts : List Token) : List Token :=
  if compound then .opening :: (ts ++ [.closing]) else ts

def tokens : Tree → List Token
  | literal l => [.literal l]
  | unary o t => o.token :: encloseTokens t.isCompound t.tokens
  | binary o s t =>
    encloseTokens s.isCompound s.tokens ++ o.token :: encloseTokens t.isCompound t.tokens

theorem derives_enclosed {t : Tree} (h : Derives 0 t.tokens t) :
    Derives primaryLevel (encloseTokens t.isCompound t.tokens) t := by
  cases t with
  | literal l => exact .literal l
  | unary o t => exact .parens h
  | binary o s t => exact .parens h

theorem derives_tokens {t : Tree} (h : t.IsPlain) : Derives 0 t.tokens t := by
  induction t with
  | literal l => exact (Derives.literal l).of_le (by decide)
  | unary o t ih =>
    obtain ⟨ho, ht⟩ := h
    have hprefix : o.token.prefix? = some o ∧ o ∈ prefixOperators := by
      cases o with
      | invalid => exact absurd rfl ho
      | minus | plus | not | bitNot => decide
    have hoperand := (derives_enclosed (ih ht)).of_le (show prefixLevel ≤ primaryLevel by decide)
    exact (Derives.prefixed hprefix.2 hprefix.1 hoperand).of_le (by decide)
  | binary o s t ihs iht =>
    obtain ⟨ho, hs, ht⟩ := h
    have hbinary : o.token.binary? = some o := by
      cases o <;> rfl
    obtain ⟨level, hlevel⟩ : ∃ level, o.level? = some level := by
      cases o with
      | invalid => exact absurd rfl ho
      | _ => exact ⟨_, rfl⟩
    obtain ⟨os, hos, hmem⟩ := level?_eq_some_iff.mp hlevel
    have hlt : level < 10 := level?_lt hlevel
    have hlhs := (derives_enclosed (ihs hs)).of_le (show level ≤ 11 by omega)
    have hrhs := (derives_enclosed (iht ht)).of_le (show level + 1 ≤ 11 by omega)
    exact (Derives.binary hos hmem hbinary hlhs hrhs).of_le (Nat.zero_le _)

end Tree

theorem Splits.cons {cs rest : List Char} {t : Token} {ts : List Token} (ht : Munch cs t rest)
    (hts : Splits rest ts) : Splits cs (t :: ts) :=
  .token (List.forall_mem_nil _) ht hts

theorem Splits.blank {cs : List Char} {ts : List Token} (h : Splits cs ts) :
    Splits (' ' :: cs) ts := by
  have hspace : isBlank ' ' := by decide
  cases h with
  | finish hblanks => exact .finish (List.forall_mem_cons.mpr ⟨hspace, hblanks⟩)
  | token hblanks ht hts => exact .token (List.forall_mem_cons.mpr ⟨hspace, hblanks⟩) ht hts

theorem UnaryOperator.token_mem_symbols {o : UnaryOperator} (h : o ≠ .invalid) :
    (o.token, o.symbol.toList) ∈ symbols := by
  cases o with
  | invalid => exact absurd rfl h
  | minus | plus | not | bitNot => decide

theorem BinaryOperator.token_mem_symbols {o : BinaryOperator} (h : o ≠ .invalid) :
    (o.token, o.symbol.toList) ∈ symbols := by
  cases o with
  | invalid => exact absurd rfl h
  | _ => decide

/-- The first character of a literal continues no operator and is no sign. -/
theorem Spells.literal_head {l : Literal} {w : List Char} (h : Spells (.literal l) w) :
    ∃ c cs, w = c :: cs ∧ c ∉ ['=', '&', '|', '<', '>'] ∧ c ≠ '-' ∧ c ≠ '+' := by
  have word : ∀ {c}, isNameStart c ∨ isAsciiDigit c ∨ c = '"' ∨ c = '\x27' →
      c ∉ ['=', '&', '|', '<', '>'] ∧ c ≠ '-' ∧ c ≠ '+' := by
    intro c hc
    refine ⟨fun hmem => ?_, ?_, ?_⟩
    · simp only [List.mem_cons, List.not_mem_nil, or_false] at hmem
      obtain rfl | rfl | rfl | rfl | rfl := hmem <;> revert hc <;> decide
    · rintro rfl
      revert hc
      decide
    · rintro rfl
      revert hc
      decide
  cases h with
  | symbol h => simp [symbols] at h
  | name h =>
    obtain ⟨hc, -⟩ := h
    exact ⟨_, _, rfl, word (.inl hc)⟩
  | string h => exact ⟨_, _, rfl, word (.inr (.inr (.inl rfl)))⟩
  | char h => exact ⟨_, _, rfl, word (.inr (.inr (.inr rfl)))⟩
  | number h =>
    obtain ⟨c, cs, hw, hc⟩ := h.head
    exact ⟨c, cs, hw, word (.inr (.inl hc))⟩

theorem Spells.apart {l : Literal} {w rest : List Char} (h : Spells (.literal l) w) :
    Apart (w ++ rest) := by
  obtain ⟨c, cs, rfl, hc, -⟩ := h.literal_head
  exact apart_cons hc

namespace Tree

variable {t : Tree} {rest : List Char} {ts : List Token}

theorem enclose_literal {l : Literal} (h : l.IsPlain) : enclose false l.text = l.text := by
  obtain ⟨c, cs, hw, -, hminus, hplus⟩ := (Literal.spells h).literal_head
  have hsign : startsWithSign l.text = false := by
    unfold startsWithSign
    rw [hw]
    simp [hminus, hplus]
  unfold enclose
  rw [hsign]
  rfl

theorem enclose_compound (text : String) :
    (enclose true text).toList = '(' :: (text.toList ++ [')']) := by
  unfold enclose
  rw [Bool.true_or, if_pos rfl, String.toList_append, String.toList_append]
  rfl

theorem apart_enclosed (h : t.IsPlain) : Apart ((enclose t.isCompound t.text).toList ++ rest) := by
  have compound : ∀ text, Apart ((enclose true text).toList ++ rest) := by
    intro text
    rw [enclose_compound]
    exact apart_cons (by decide)
  cases t with
  | literal l =>
    have htext : enclose (literal l).isCompound (literal l).text = l.text := enclose_literal h
    rw [htext]
    exact (Literal.spells h).apart
  | unary o t => exact compound _
  | binary o s t => exact compound _

theorem apart_text (h : t.IsPlain) : Apart (t.text.toList ++ rest) := by
  cases t with
  | literal l => exact (Literal.spells h).apart
  | unary o t =>
    have hsymbol : ∀ c ∈ o.symbol.toList.head?, c ∉ ['=', '&', '|', '<', '>'] := by
      cases o <;> simp [UnaryOperator.symbol]
    have hne : o.symbol.toList ≠ [] := by
      cases o <;> decide
    intro c hc
    have htext : (unary o t).text.toList =
        o.symbol.toList ++ (enclose t.isCompound t.text).toList :=
      String.toList_append ..
    rw [htext, List.append_assoc, head?_append_of_ne_nil hne] at hc
    exact hsymbol c hc
  | binary o s t =>
    have htext : (binary o s t).text.toList = (enclose s.isCompound s.text).toList ++
        (' ' :: (o.symbol.toList ++ ' ' :: (enclose t.isCompound t.text).toList)) := by
      simp [text]
    rw [htext, List.append_assoc]
    exact apart_enclosed h.2.1

/-- The text of a tree splits into its tokens in front of what follows an operand. -/
def SplitsWhole (t : Tree) : Prop :=
  ∀ {rest ts}, Closes rest → Splits rest ts → Splits (t.text.toList ++ rest) (t.tokens ++ ts)

theorem splits_enclosed (h : t.IsPlain) (ht : t.SplitsWhole) (hr : Closes rest)
    (hts : Splits rest ts) :
    Splits ((enclose t.isCompound t.text).toList ++ rest)
      (encloseTokens t.isCompound t.tokens ++ ts) := by
  have compound : Splits ((enclose true t.text).toList ++ rest)
      (encloseTokens true t.tokens ++ ts) := by
    have hopening : (Token.opening, ['(']) ∈ symbols := by decide
    have hclosing : (Token.closing, [')']) ∈ symbols := by decide
    have hlast : Splits (')' :: rest) (.closing :: ts) := .cons (munch_symbol hclosing hr.apart) hts
    have hparen : Closes (')' :: rest) := by
      intro c hc
      cases hc
      exact .inr rfl
    have hinner := ht hparen hlast
    have htokens : encloseTokens true t.tokens ++ ts =
        .opening :: (t.tokens ++ .closing :: ts) := by
      simp [encloseTokens]
    rw [enclose_compound, htokens, List.cons_append, List.append_assoc]
    exact .cons (munch_symbol hopening (apart_text h)) hinner
  cases t with
  | literal l =>
    have htext : enclose (literal l).isCompound (literal l).text = l.text := enclose_literal h
    rw [htext]
    exact ht hr hts
  | unary o t => exact compound
  | binary o s t => exact compound

theorem splits_text (h : t.IsPlain) : t.SplitsWhole := by
  induction t with
  | literal l => exact fun hr hts => .cons ((Literal.spells h).munch_literal hr) hts
  | unary o t ih =>
    intro rest ts hr hts
    have hoperand := splits_enclosed h.2 (ih h.2) hr hts
    have hapart : Apart ((enclose t.isCompound t.text).toList ++ rest) := apart_enclosed h.2
    have hsymbol := munch_symbol (UnaryOperator.token_mem_symbols h.1) hapart
    have htext : (unary o t).text.toList =
        o.symbol.toList ++ (enclose t.isCompound t.text).toList :=
      String.toList_append ..
    rw [htext, List.append_assoc]
    exact .cons hsymbol hoperand
  | binary o s t ihs iht =>
    intro rest ts hr hts
    obtain ⟨ho, hs, ht⟩ := h
    have hspace : ∀ cs, Closes (' ' :: cs) := by
      intro cs c hc
      cases hc
      exact .inl rfl
    have hrhs := (splits_enclosed ht (iht ht) hr hts).blank
    have hop :=
      (Splits.cons (munch_symbol (BinaryOperator.token_mem_symbols ho) (hspace _).apart) hrhs).blank
    have hlhs := splits_enclosed hs (ihs hs) (hspace _) hop
    have htext : (binary o s t).text.toList ++ rest = (enclose s.isCompound s.text).toList ++
        (' ' :: (o.symbol.toList ++ ' ' :: ((enclose t.isCompound t.text).toList ++ rest))) := by
      simp [text]
    have htokens : (binary o s t).tokens ++ ts = encloseTokens s.isCompound s.tokens ++
        o.token :: (encloseTokens t.isCompound t.tokens ++ ts) := by
      simp [tokens]
    rw [htext, htokens]
    exact hlhs

/-- Canonical text reads back. -/
theorem parse_text (h : t.IsPlain) : Tree.parse t.text = .ok t := by
  have hend : Closes [] := fun c hc => by cases hc
  have hsplits : Splits (t.text.toList ++ []) (t.tokens ++ []) :=
    splits_text h hend (.finish (List.forall_mem_nil _))
  rw [List.append_nil, List.append_nil] at hsplits
  exact parse_of_splits hsplits (derives_tokens h)

/-- The difference of a negated name and a shifted floating number. -/
def shifted : Tree :=
  .binary .sub (.unary .minus (.literal (.name "a.b")))
    (.binary .shiftLeft (.literal (.value (.integer ⟨.ulong, 3, by decide⟩)))
      (.literal (.value (.double (.finite false ⟨1022 * 2 ^ 52, by decide⟩)))))

theorem parse_shifted : shifted.IsPlain ∧ shifted.text = "(-a.b) - (3UL << 0.5)" ∧
    Tree.parse "(-a.b) - (3UL << 0.5)" = .ok shifted := by
  have hname : IsName "a.b".toList := .mk (by decide) (.dot (by decide) (.part (by decide) .nil))
  have hplain : shifted.IsPlain :=
    ⟨by decide, ⟨by decide, hname, by decide, by decide, by decide⟩, by decide,
      fun _ => by decide, ⟨_, rfl⟩⟩
  have htext : shifted.text = "(-a.b) - (3UL << 0.5)" := by decide +kernel
  have hparse := parse_text hplain
  rw [htext] at hparse
  exact ⟨hplain, htext, hparse⟩

end Tree

end InterfaceCatalog
