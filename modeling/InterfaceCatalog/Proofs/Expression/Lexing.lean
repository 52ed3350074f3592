import InterfaceCatalog.Proofs.Expression.Numeral
import InterfaceCatalog.Proofs.Expression.Parsing
import InterfaceCatalog.Proofs.Expression.Scanning

namespace InterfaceCatalog

theorem not_quote_of_isNameStart {c : Char} (h : isNameStart c) : c ≠ '"' ∧ c ≠ '\x27' := by
  constructor <;> rintro rfl <;> revert h <;> decide

theorem not_quote_of_isAsciiDigit {c : Char} (h : isAsciiDigit c) : c ≠ '"' ∧ c ≠ '\x27' := by
  constructor <;> rintro rfl <;> revert h <;> decide

section Classes

variable {t : Token} {c : Char} {w cs : List Char}

theorem Spells.symbol_of_head (h : Spells t (c :: w)) (hname : ¬ isNameStart c)
    (hdigit : ¬ isAsciiDigit c) (hquote : c ≠ '"') (hmark : c ≠ '\x27') :
    (t, c :: w) ∈ symbols := by
  cases h with
  | symbol h => exact h
  | name h =>
    obtain ⟨hc, h⟩ := h
    exact absurd hc hname
  | string h => exact absurd rfl hquote
  | char h => exact absurd rfl hmark
  | number h =>
    obtain ⟨d, ds, heq, hd⟩ := h.head
    cases heq
    exact absurd hd hdigit

theorem not_symbol_of_head {t : Token}
    (hhead : isNameStart c ∨ isAsciiDigit c ∨ c = '"' ∨ c = '\x27') : (t, c :: w) ∉ symbols := by
  intro h
  obtain ⟨d, ds, heq, -, halnum, hstart, -, hquote, hmark⟩ := symbols_head _ h
  cases heq
  obtain hc | hc | hc | hc := hhead
  · simp [hc] at hstart
  · simp [isAlphanumeric_of_isAsciiDigit hc] at halnum
  · exact hquote hc
  · exact hmark hc

theorem Spells.name_of_head (h : Spells t (c :: w)) (hc : isNameStart c) :
    NameTail w ∧ t = .literal (Literal.ofName (c :: w)) := by
  cases h with
  | symbol h => exact absurd h (not_symbol_of_head (.inl hc))
  | name h =>
    obtain ⟨hc, h⟩ := h
    exact ⟨h, rfl⟩
  | string h => exact absurd hc (by decide)
  | char h => exact absurd hc (by decide)
  | number h =>
    obtain ⟨d, ds, heq, hd⟩ := h.head
    cases heq
    exact absurd hc (not_isNameStart_of_isAsciiDigit hd)

theorem Spells.number_of_head (h : Spells t (c :: w)) (hc : isAsciiDigit c) :
    ∃ v, Denotes (c :: w) v ∧ t = .literal (.value v) := by
  cases h with
  | symbol h => exact absurd h (not_symbol_of_head (.inr (.inl hc)))
  | name h =>
    obtain ⟨hstart, h⟩ := h
    exact absurd hstart (not_isNameStart_of_isAsciiDigit hc)
  | string h => exact absurd hc (by decide)
  | char h => exact absurd hc (by decide)
  | number h => exact ⟨_, h, rfl⟩

def quotedLiteral? (quote : Char) (content : List Char) : Option Literal :=
  if quote = '"' then some (.value (.string (String.ofList content)))
  else
    match content with
    | [c] => some (.value (.char c))
    | _ => none

theorem Spells.quotation_of_head (h : Spells t (c :: w)) (hc : c = '"' ∨ c = '\x27') :
    ∃ body content l, w = body ++ [c] ∧ Encodes c body content ∧ quotedLiteral? c content = some l ∧
      t = .literal l := by
  cases h with
  | symbol h => exact absurd h (not_symbol_of_head (.inr (.inr hc)))
  | name h =>
    obtain ⟨hstart, h⟩ := h
    obtain ⟨hquote, hmark⟩ := not_quote_of_isNameStart hstart
    exact absurd hc (by simp [hquote, hmark])
  | string h => exact ⟨_, _, _, rfl, h, rfl, rfl⟩
  | char h => exact ⟨_, _, _, rfl, h, rfl, rfl⟩
  | number h =>
    obtain ⟨d, ds, heq, hd⟩ := h.head
    cases heq
    obtain ⟨hquote, hmark⟩ := not_quote_of_isAsciiDigit hd
    exact absurd hc (by simp [hquote, hmark])

theorem spells_of_quotedLiteral? {quote : Char} {body content : List Char} {l : Literal}
    (hq : quote = '"' ∨ quote = '\x27') (hl : quotedLiteral? quote content = some l)
    (h : Encodes quote body content) : Spells (.literal l) (quote :: (body ++ [quote])) := by
  obtain rfl | rfl := hq
  · cases hl
    exact .string h
  · unfold quotedLiteral? at hl
    simp only [show ('\x27' : Char) ≠ '"' by decide, if_false] at hl
    split at hl
    next c => cases hl; exact .char h
    next => cases hl

theorem scanQuotation_eq {offset : Nat} {quote : Char} {q : Quotation}
    (h : scanQuoted quote cs = .ok q) :
    scanQuotation offset quote cs =
      match quotedLiteral? quote q.content with
      | some l => .ok ⟨.literal l, quote :: q.text, q.rest⟩
      | none => .error (.invalidCharacter offset) := by
  unfold scanQuotation quotedLiteral?
  rw [h]
  by_cases hq : quote = '"'
  · simp [hq]
  · simp only [hq, if_false]
    cases q.content with
    | nil => rfl
    | cons d ds => cases ds <;> rfl

theorem scanQuotation_ok {offset : Nat} {quote : Char} {l : Lexeme}
    (h : scanQuotation offset quote cs = .ok l) : ∃ q lit, scanQuoted quote cs = .ok q ∧
      quotedLiteral? quote q.content = some lit ∧ l = ⟨.literal lit, quote :: q.text, q.rest⟩ := by
  cases hq : scanQuoted quote cs with
  | error f =>
    unfold scanQuotation at h
    rw [hq] at h
    cases f <;> cases h
  | ok q =>
    rw [scanQuotation_eq hq] at h
    split at h
    next lit hlit => cases h; exact ⟨q, lit, rfl, hlit, rfl⟩
    next => cases h

end Classes

section Token

variable {offset : Nat} {c : Char} {cs : List Char}

theorem longest_of_cons {w : List Char}
    (h : ∀ {t' w'}, Spells t' (c :: w') → w' <+: cs → (c :: w').length ≤ w.length) :
    Longest (c :: cs) w := by
  intro t' w' hspells hw
  obtain ⟨d, ds, rfl, -⟩ := hspells.head
  obtain ⟨rfl, hds⟩ := List.cons_prefix_cons.mp hw
  exact h hspells hds

theorem longest_symbol {t : Token} {n : Nat} (h : scanSymbol? (c :: cs) = some (t, n)) :
    Longest (c :: cs) ((c :: cs).take n) := by
  obtain ⟨hsymbol, hn, hpos⟩ := scanSymbol?_sound h
  refine longest_of_cons fun {t' w'} hspells hw => ?_
  obtain ⟨d, ds, heq, -, halnum, hstart, -, hquote, hmark⟩ := symbols_head _ hsymbol
  have hd : d = c := by
    obtain ⟨m, rfl⟩ := Nat.exists_eq_succ_of_ne_zero (Nat.ne_of_gt hpos)
    exact (List.cons.inj heq).1.symm
  have hdigit : ¬ isAsciiDigit d := fun hdigit => by
    simp [isAlphanumeric_of_isAsciiDigit hdigit] at halnum
  subst hd
  have hmem := hspells.symbol_of_head (by simp [hstart]) hdigit hquote hmark
  obtain ⟨t'', n', hscan, hle⟩ := scanSymbol?_longest hmem (List.cons_prefix_cons.mpr ⟨rfl, hw⟩)
  cases h.symm.trans hscan
  rw [List.length_take, Nat.min_eq_left hn]
  exact hle

theorem longest_quotation {q : Quotation} (hc : c = '"' ∨ c = '\x27')
    (h : scanQuoted c cs = .ok q) : Longest (c :: cs) (c :: q.text) := by
  refine longest_of_cons fun {t' w'} hspells hw => ?_
  obtain ⟨body, content, l, rfl, henc, -⟩ := hspells.quotation_of_head hc
  obtain ⟨rest, rfl⟩ := hw
  have hslash : c ≠ '\\' := by
    obtain rfl | rfl := hc <;> decide
  have hscan := scanQuoted_complete hslash henc rest
  rw [List.append_assoc, List.singleton_append, hscan] at h
  cases h
  exact Nat.le_refl _

theorem longest_number (hc : isAsciiDigit c) : Longest (c :: cs) (scanNumeral (c :: cs)).text := by
  refine longest_of_cons fun {t' w'} hspells hw => ?_
  obtain ⟨v, hv, -⟩ := hspells.number_of_head hc
  exact hv.length_le (List.cons_prefix_cons.mpr ⟨rfl, hw⟩)

theorem longest_name (hc : isNameStart c) : Longest (c :: cs) (c :: (scanName cs).1) := by
  refine longest_of_cons fun {t' w'} hspells hw => ?_
  obtain ⟨htail, -⟩ := hspells.name_of_head hc
  have hle := scanName_longest htail hw
  simp only [List.length_cons]
  omega

/-- A token that is scanned is the longest one. -/
theorem scanToken_sound {l : Lexeme} (h : scanToken offset c cs = .ok l) :
    Munch (c :: cs) l.token l.rest := by
  unfold scanToken at h
  split at h
  next t n hsymbol =>
    cases h
    obtain ⟨hmem, -⟩ := scanSymbol?_sound hsymbol
    exact ⟨_, .symbol hmem, (List.take_append_drop n _).symm, longest_symbol hsymbol⟩
  next =>
    split at h
    next hquote =>
      obtain ⟨q, lit, hq, hlit, rfl⟩ := scanQuotation_ok h
      obtain ⟨body, htext, hcs, henc⟩ := scanQuoted_sound hq
      refine ⟨c :: q.text, ?_, ?_, longest_quotation hquote hq⟩
      · rw [htext]
        exact spells_of_quotedLiteral? hquote hlit henc
      · rw [List.cons_append, ← hcs]
    next =>
      split at h
      next hdigit =>
        simp only at h
        split at h
        next v hv =>
          cases h
          refine ⟨_, .number (scanNumeral_sound hdigit hv), (scanNumeral_parts _).symm,
            longest_number hdigit⟩
        next => cases h
      next =>
        split at h
        next hstart =>
          cases h
          refine ⟨_, .name (.mk hstart (scanName_nameTail cs)), ?_, longest_name hstart⟩
          rw [List.cons_append, scanName_append]
        next => cases h

theorem scanSymbol?_eq_none_of_head (hhead : isNameStart c ∨ isAsciiDigit c ∨ c = '"' ∨
    c = '\x27') : scanSymbol? (c :: cs) = none := by
  cases h : scanSymbol? (c :: cs) with
  | none => rfl
  | some p =>
    obtain ⟨hsymbol, -, hpos⟩ := scanSymbol?_sound h
    obtain ⟨n, hn⟩ := Nat.exists_eq_succ_of_ne_zero (Nat.ne_of_gt hpos)
    rw [hn, List.take_succ_cons] at hsymbol
    exact absurd hsymbol (not_symbol_of_head hhead)

theorem scanToken_symbol {t : Token} {w rest : List Char} (h : (t, w) ∈ symbols)
    (hcs : c :: cs = w ++ rest) (hw : Longest (c :: cs) w) :
    scanToken offset c cs = .ok ⟨t, w, rest⟩ := by
  obtain ⟨t', n, hscan, hle⟩ := scanSymbol?_longest h (hcs ▸ List.prefix_append w rest)
  obtain ⟨hsymbol, hn, -⟩ := scanSymbol?_sound hscan
  have hge := hw (.symbol hsymbol) (List.take_prefix n _)
  rw [List.length_take, Nat.min_eq_left hn] at hge
  obtain rfl := Nat.le_antisymm hge hle
  have htake : (c :: cs).take w.length = w := by rw [hcs, List.take_left]
  have hdrop : (c :: cs).drop w.length = rest := by rw [hcs, List.drop_left]
  rw [htake] at hsymbol
  obtain rfl : t' = t := congrArg Prod.fst (symbols_unique _ hsymbol _ h rfl)
  unfold scanToken
  rw [hscan]
  simp only [htake, hdrop]

theorem scanToken_name {w rest : List Char} (hc : isNameStart c) (hw : NameTail w)
    (hcs : cs = w ++ rest) (hlong : Longest (c :: cs) (c :: w)) :
    scanToken offset c cs = .ok ⟨.literal (Literal.ofName (c :: w)), c :: w, rest⟩ := by
  have hparts := scanName_append cs
  have hle := scanName_longest hw (hcs ▸ List.prefix_append w rest)
  have hscanned : c :: (scanName cs).1 <+: c :: cs :=
    List.cons_prefix_cons.mpr ⟨rfl, (scanName cs).2, hparts⟩
  have hge := hlong (.name (.mk hc (scanName_nameTail cs))) hscanned
  simp only [List.length_cons] at hge
  obtain ⟨hname, hrest⟩ := List.append_inj (hparts.trans hcs) (by omega)
  obtain ⟨hquote, hmark⟩ := not_quote_of_isNameStart hc
  have hdigit : ¬ isAsciiDigit c := fun hdigit => not_isNameStart_of_isAsciiDigit hdigit hc
  unfold scanToken
  rw [scanSymbol?_eq_none_of_head (.inl hc)]
  simp only [hquote, hmark, hdigit, hc, or_false, if_false, if_true, hname, hrest,
    Bool.false_eq_true]

theorem scanToken_quotation {body content rest : List Char} {l : Literal}
    (hc : c = '"' ∨ c = '\x27') (h : Encodes c body content)
    (hl : quotedLiteral? c content = some l) (hcs : cs = body ++ c :: rest) :
    scanToken offset c cs = .ok ⟨.literal l, c :: (body ++ [c]), rest⟩ := by
  have hslash : c ≠ '\\' := by
    obtain rfl | rfl := hc <;> decide
  have hscan := scanQuoted_complete hslash h rest
  rw [← hcs] at hscan
  unfold scanToken
  rw [scanSymbol?_eq_none_of_head (.inr (.inr hc))]
  simp only [hc, if_true]
  rw [scanQuotation_eq hscan]
  simp only [hl]

theorem scanToken_number {w rest : List Char} {v : Value} (h : Denotes (c :: w) v)
    (hcs : cs = w ++ rest) (hr : Ends rest) :
    scanToken offset c cs = .ok ⟨.literal (.value v), c :: w, rest⟩ := by
  obtain ⟨d, ds, heq, hc⟩ := h.head
  obtain ⟨rfl, -⟩ := List.cons.inj heq
  obtain ⟨hquote, hmark⟩ := not_quote_of_isAsciiDigit hc
  obtain ⟨htext, hrest, hvalue⟩ := h.scan hr
  rw [List.cons_append, ← hcs] at htext hrest hvalue
  unfold scanToken
  rw [scanSymbol?_eq_none_of_head (.inr (.inl hc))]
  simp only [hquote, hmark, hc, or_false, if_false, if_true, hvalue, htext, hrest]

/-- The longest token is scanned, if a literal ends where it should. -/
theorem scanToken_complete {t : Token} {rest : List Char} (h : Munch (c :: cs) t rest)
    (hr : t.IsLiteral → Ends rest) :
    ∃ w, c :: cs = w ++ rest ∧ scanToken offset c cs = .ok ⟨t, w, rest⟩ := by
  obtain ⟨w, hspells, hcs, hlong⟩ := h
  refine ⟨w, hcs, ?_⟩
  cases hspells with
  | symbol h => exact scanToken_symbol h hcs hlong
  | name h =>
    obtain ⟨hc, hw⟩ := h
    obtain ⟨rfl, htail⟩ := List.cons.inj hcs
    exact scanToken_name hc hw htail hlong
  | string h =>
    obtain ⟨rfl, htail⟩ := List.cons.inj hcs
    exact scanToken_quotation (.inl rfl) h rfl (by simpa using htail)
  | char h =>
    obtain ⟨rfl, htail⟩ := List.cons.inj hcs
    exact scanToken_quotation (.inr rfl) h rfl (by simpa using htail)
  | number h =>
    obtain ⟨d, ds, rfl, hd⟩ := h.head
    obtain ⟨rfl, htail⟩ := List.cons.inj hcs
    exact scanToken_number h htail (hr trivial)

end Token

/-- A stream without a fault splits its text. -/
theorem tokensFrom_sound {fuel offset : Nat} {cs : List Char} {ts : List Token} {last : Nat}
    (hfuel : cs.length < fuel) (h : (tokensFrom fuel offset cs).Starts ts (.finish last)) :
    Splits cs ts := by
  induction fuel generalizing offset cs ts with
  | zero => omega
  | succ fuel ih =>
    have hparts := List.takeWhile_append_dropWhile (p := isBlank) (l := cs)
    unfold tokensFrom at h
    simp only at h
    split at h
    next hnil =>
      cases h
      rw [← hparts, hnil, List.append_nil]
      exact .finish forall_mem_takeWhile
    next c ds hcons =>
      split at h
      next => cases h
      next l hl =>
        cases h with
        | cons t start h =>
          obtain ⟨d, ds', -, -, hshorter⟩ := (scanToken_sound hl).head
          have hlength : l.rest.length < fuel := by
            have hcs := congrArg List.length hparts
            rw [hcons, List.length_append] at hcs
            omega
          rw [← hparts, hcons]
          exact .token forall_mem_takeWhile (scanToken_sound hl) (ih hlength h)

/-- A text that splits, with no literal behind a literal, is a stream without a fault. -/
theorem tokensFrom_complete {cs : List Char} {ts : List Token} (h : Splits cs ts)
    (hts : ts.IsChain Token.Beside) {fuel offset : Nat} (hfuel : cs.length < fuel) :
    ∃ last, (tokensFrom fuel offset cs).Starts ts (.finish last) := by
  induction h generalizing fuel offset with
  | @finish blanks hblanks =>
    obtain ⟨n, rfl⟩ := Nat.exists_eq_succ_of_ne_zero (Nat.ne_of_gt (Nat.zero_lt_of_lt hfuel))
    have hdrop := List.dropWhile_eq_nil_iff.mpr hblanks
    unfold tokensFrom
    simp only [hdrop]
    exact ⟨_, .nil _⟩
  | @token blanks cs rest t ts hblanks ht hrest ih =>
    obtain ⟨n, rfl⟩ := Nat.exists_eq_succ_of_ne_zero (Nat.ne_of_gt (Nat.zero_lt_of_lt hfuel))
    obtain ⟨hhead, htail⟩ := List.isChain_cons.mp hts
    have hends : t.IsLiteral → Ends rest := fun hliteral => hrest.ends fun u hu hu' =>
      hhead u hu ⟨hliteral, hu'⟩
    obtain ⟨c, cs, rfl, hc, hshorter⟩ := ht.head
    have hdrop : (blanks ++ c :: cs).dropWhile isBlank = c :: cs :=
      dropWhile_append_stop hblanks fun d hd => by cases hd; exact hc
    obtain ⟨w, -, hscan⟩ := @scanToken_complete
      (offset + utf8Length ((blanks ++ c :: cs).takeWhile isBlank)) c cs t rest ht hends
    have hlength : rest.length < n := by
      rw [List.length_append] at hfuel
      omega
    obtain ⟨last, hlast⟩ := ih htail hlength
    unfold tokensFrom
    simp only [hdrop, hscan]
    exact ⟨last, .cons t _ hlast⟩

/-- What splits into the tokens of an expression is read as its tree. -/
theorem Tree.parse_of_splits {text : String} {ts : List Token} {t : Tree}
    (hsplits : Splits text.toList ts) (hderives : Derives 0 ts t) : Tree.parse text = .ok t := by
  obtain ⟨last, hstarts⟩ := tokensFrom_complete hsplits hderives.beside (Nat.lt_succ_self _)
  exact parse_of_derives hstarts hderives

/-- The parser accepts exactly the texts that split into the tokens of an expression, and reads the
tree that the grammar gives them. -/
theorem Tree.parse_eq_ok_iff (text : String) (t : Tree) :
    Tree.parse text = .ok t ↔ ∃ ts, Splits text.toList ts ∧ Derives 0 ts t := by
  constructor
  · intro h
    obtain ⟨offset, ts, hstarts, hderives⟩ := reads_of_parse h
    have hsplits := tokensFrom_sound (Nat.lt_succ_self _) hstarts
    exact ⟨ts, hsplits, hderives hsplits.real⟩
  · rintro ⟨ts, hsplits, hderives⟩
    exact parse_of_splits hsplits hderives

end InterfaceCatalog
