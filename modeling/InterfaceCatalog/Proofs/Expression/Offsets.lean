import InterfaceCatalog.Proofs.Expression.Places

namespace InterfaceCatalog

def SyntaxError.offset : SyntaxError → Nat
  | .unexpectedCharacter _ o | .unterminatedLiteral o | .invalidEscape o | .invalidCharacter o
  | .invalidNumber _ o | .expected _ o | .trailingInput o => o

/-- What an error says is so at its offset. -/
def SyntaxError.Fits (text : String) : SyntaxError → Prop
  | .unexpectedCharacter c o => Stands text o [c]
  | .unterminatedLiteral o => Stands text o ['"'] ∨ Stands text o ['\x27']
  | .invalidEscape o => Stands text o ['\\']
  | .invalidCharacter o => Stands text o ['\x27']
  | .invalidNumber number o => Stands text o number.toList ∧ ∃ d ∈ number.toList.head?,
      isAsciiDigit d
  | .expected _ o =>
    o = text.utf8ByteSize ∨ ∃ ts c cs l, Visits text ts o c cs ∧ scanToken o c cs = .ok l
  | .trailingInput o => o < text.utf8ByteSize ∧ ∃ accepted rest t, text = accepted ++ rest ∧
      accepted.utf8ByteSize = o ∧ Tree.parse accepted = .ok t

theorem scanQuoted_escape {quote : Char} {cs before : List Char}
    (h : scanQuoted quote cs = .error (.escape before)) : ∃ rest, cs = before ++ '\\' :: rest := by
  fun_induction scanQuoted quote cs generalizing before with
  | case1 => cases h
  | case2 => cases h
  | case3 => cases h
  | case4 e rest => cases h; exact ⟨e :: rest, rfl⟩
  | case5 => cases h
  | case6 e rest d hd f hf hquote ih =>
    cases f with
    | unterminated => cases h
    | escape before' =>
      cases h
      obtain ⟨rest', rfl⟩ := ih hf
      exact ⟨rest', rfl⟩
  | case7 => cases h
  | case8 c cs hquote hslash f hf ih =>
    cases f with
    | unterminated => cases h
    | escape before' =>
      cases h
      obtain ⟨rest', rfl⟩ := ih hf
      exact ⟨rest', rfl⟩

theorem scanNumeral_head {c : Char} {cs : List Char} (hc : isAsciiDigit c) :
    (scanNumeral (c :: cs)).text.head? = some c := by
  obtain ⟨x, ds, hcs, -, hscan⟩ | hscan := scanNumeral_cases (c :: cs)
  · cases hcs
    rw [hscan]
    rfl
  · rw [hscan]
    simp only [scanDecimal, Numeral.text, List.takeWhile_cons_of_pos hc, List.nil_append,
      List.cons_append, List.head?_cons]

section

variable {text : String} {offset : Nat} {c : Char} {cs : List Char} {e : SyntaxError}

theorem quotation_fits (h : Stands text offset (c :: cs)) (hquote : c = '"' ∨ c = '\x27')
    (he : scanQuotation offset c cs = .error e) : e.Fits text := by
  have hfirst : Stands text offset [c] := h.of_append (v := [c])
  cases hq : scanQuoted c cs with
  | error f =>
    unfold scanQuotation at he
    rw [hq] at he
    cases f with
    | unterminated =>
      cases he
      obtain rfl | rfl := hquote
      · exact .inl hfirst
      · exact .inr hfirst
    | escape before =>
      cases he
      obtain ⟨rest, rfl⟩ := scanQuoted_escape hq
      exact (h.behind (v := c :: before)).of_append (v := ['\\'])
  | ok q =>
    rw [scanQuotation_eq hq] at he
    obtain rfl | rfl := hquote
    · cases he
    · split at he
      next => cases he
      next => cases he; exact hfirst

theorem number_fits (h : Stands text offset (c :: cs)) (hc : isAsciiDigit c) :
    SyntaxError.Fits text (.invalidNumber (String.ofList (scanNumeral (c :: cs)).text) offset) := by
  rw [← scanNumeral_parts (c :: cs)] at h
  refine ⟨?_, c, ?_, hc⟩
  · rw [String.toList_ofList]
    exact h.of_append
  · rw [String.toList_ofList]
    exact scanNumeral_head hc

/-- A fault is what is said of it. -/
theorem token_fits (h : Stands text offset (c :: cs)) (he : scanToken offset c cs = .error e) :
    e.Fits text := by
  unfold scanToken at he
  split at he
  next => cases he
  next =>
    split at he
    next hquote => exact quotation_fits h hquote he
    next =>
      split at he
      next hdigit =>
        simp only at he
        split at he
        next => cases he
        next => cases he; exact number_fits h hdigit
      next =>
        split at he
        next => cases he
        next => cases he; exact h.of_append (v := [c])

end

/-- What is made of a stream: some tokens are taken from it. Then it fails with a fault of the
stream, or because of what it has come to. -/
def Tokens.Yields (ts : Tokens) : Except SyntaxError (Tree × Tokens) → Prop
  | .ok (_, rest) => ∃ used, ts.Starts used rest ∧ ¬ rest.IsFault
  | .error e => ∃ used rest, ts.Starts used rest ∧
      (rest = .fault e ∨ ¬ rest.IsFault ∧ ∃ what, e = .expected what rest.offset)

namespace Tokens.Yields

variable {ts us : Tokens} {used : List Token}

theorem of_starts {r : Except SyntaxError (Tree × Tokens)} (hs : ts.Starts used us)
    (h : us.Yields r) : ts.Yields r := by
  cases r with
  | ok p =>
    obtain ⟨more, hmore, hrest⟩ := h
    exact ⟨_, hs.trans hmore, hrest⟩
  | error e =>
    obtain ⟨more, rest, hmore, hrest⟩ := h
    exact ⟨_, rest, hs.trans hmore, hrest⟩

theorem ok (hts : ¬ ts.IsFault) (t : Tree) : ts.Yields (.ok (t, ts)) :=
  ⟨[], .nil ts, hts⟩

theorem expected (hts : ¬ ts.IsFault) (what : Expectation) :
    ts.Yields (.error (.expected what ts.offset)) :=
  ⟨[], ts, .nil ts, .inr ⟨hts, what, rfl⟩⟩

theorem bind {r : Except SyntaxError (Tree × Tokens)}
    {f : Tree × Tokens → Except SyntaxError (Tree × Tokens)} (h : ts.Yields r)
    (hf : ∀ t (rest : Tokens), ¬ rest.IsFault → rest.Yields (f (t, rest))) :
    ts.Yields (r >>= f) := by
  cases r with
  | error e => exact h
  | ok p =>
    obtain ⟨used, hused, hrest⟩ := h
    exact of_starts hused (hf p.1 p.2 hrest)

/-- A token is taken, unless a fault follows it. -/
theorem advance {t : Token} {offset : Nat} {f : Tokens → Except SyntaxError (Tree × Tokens)}
    (hf : ¬ us.IsFault → us.Yields (f us)) :
    (Tokens.token t offset us).Yields ((Tokens.token t offset us).advance >>= f) := by
  have hstarts : (Tokens.token t offset us).Starts [t] us := .cons t offset (.nil us)
  cases us with
  | fault e => exact ⟨[t], .fault e, hstarts, .inl rfl⟩
  | finish _ => exact of_starts hstarts (hf fun h => h)
  | token _ _ _ => exact of_starts hstarts (hf fun h => h)

end Tokens.Yields

def ExpressionYields (n : Nat) : Prop :=
  ∀ power (ts : Tokens), ¬ ts.IsFault → ts.Yields (parseExpression n power ts)

def OperandYields (n : Nat) : Prop :=
  ∀ ts : Tokens, ¬ ts.IsFault → ts.Yields (parseOperand n ts)

def OperatorsYield (n : Nat) : Prop :=
  ∀ power lhs (ts : Tokens), ¬ ts.IsFault → ts.Yields (parseOperators n power lhs ts)

theorem expressionYields_succ {n : Nat} (hoperand : OperandYields n)
    (hoperators : OperatorsYield n) : ExpressionYields (n + 1) := by
  intro power ts hts
  rw [parseExpression]
  exact (hoperand ts hts).bind fun lhs rest hrest => hoperators power lhs rest hrest

theorem operandYields_succ {n : Nat} (hexpression : ExpressionYields n) :
    OperandYields (n + 1) := by
  intro ts hts
  rw [parseOperand]
  cases ts with
  | fault e => exact absurd trivial hts
  | finish offset => exact .expected hts .expression
  | token tok offset us =>
    cases tok with
    | literal l => exact .advance fun hus => .ok hus _
    | opening =>
      refine .advance fun hus => (hexpression 0 us hus).bind fun inner rest hrest => ?_
      cases rest with
      | fault e => exact absurd trivial hrest
      | finish offset => exact .expected hrest .closing
      | token u offset' vs =>
        cases u with
        | closing => exact .advance fun hvs => .ok hvs _
        | literal | plus | minus | binary | prefixed | opening => exact .expected hrest .closing
    | plus | minus | prefixed =>
      exact .advance fun hus => (hexpression prefixPower us hus).bind fun operand rest hrest =>
        .ok hrest _
    | binary | closing =>
      -- nothing is taken, unless the token behind it is faulty
      cases us with
      | fault e => exact ⟨_, .fault e, .cons _ offset (.nil _), .inl rfl⟩
      | finish _ => exact .expected hts .expression
      | token _ _ _ => exact .expected hts .expression

theorem operatorsYield_succ {n : Nat} (hexpression : ExpressionYields n)
    (hoperators : OperatorsYield n) : OperatorsYield (n + 1) := by
  intro power lhs ts hts
  cases ts with
  | fault e => exact absurd trivial hts
  | finish offset => exact .ok hts lhs
  | token tok offset us =>
    rw [parseOperators]
    split
    next => exact .ok hts lhs
    next o _ =>
      split
      next => exact .ok hts lhs
      next left right _ =>
        split
        next => exact .ok hts lhs
        next =>
          exact .advance fun hus => (hexpression right us hus).bind fun rhs rest hrest =>
            hoperators power (.binary o lhs rhs) rest hrest

theorem parsers_yield (n : Nat) : ExpressionYields n ∧ OperandYields n ∧ OperatorsYield n := by
  induction n with
  | zero =>
    refine ⟨fun power ts hts => ?_, fun ts hts => ?_, fun power lhs ts hts => ?_⟩
    · rw [parseExpression]; exact .expected hts .expression
    · rw [parseOperand]; exact .expected hts .expression
    · rw [parseOperators]; exact .expected hts .expression
  | succ n ih =>
    obtain ⟨hexpression, hoperand, hoperators⟩ := ih
    exact ⟨expressionYields_succ hoperand hoperators, operandYields_succ hexpression,
      operatorsYield_succ hexpression hoperators⟩

/-- A text is rejected for a fault, for what its stream has come to, or because an
expression ends before it. -/
theorem Tree.parse_error_cases {text : String} {e : SyntaxError} (h : Tree.parse text = .error e) :
    ∃ ts stream, (tokens text).Starts ts stream ∧ (stream = .fault e ∨
      ¬ stream.IsFault ∧ ((∃ what, e = .expected what stream.offset) ∨
        ∃ t offset rest tree, stream = .token t offset rest ∧ e = .trailingInput offset ∧
          ((∀ tok ∈ ts, tok.Real) → Derives 0 ts tree))) := by
  unfold Tree.parse at h
  simp only at h
  split at h
  next e' htokens =>
    cases h
    exact ⟨[], _, .nil _, .inl htokens⟩
  next htokens =>
    have hts : ¬ (tokens text).IsFault := by
      intro hfault
      cases hstream : tokens text with
      | fault e' => exact htokens e' hstream
      | finish _ | token _ _ _ => rw [hstream] at hfault; exact hfault
    have hyields := (parsers_yield (3 * (tokens text).size + 3)).1 0 _ hts
    cases hparse : parseExpression (3 * (tokens text).size + 3) 0 (tokens text) with
    | error e' =>
      rw [hparse] at h hyields
      cases h
      obtain ⟨used, rest, hstarts, hrest⟩ := hyields
      exact ⟨used, rest, hstarts, hrest.imp_right fun hrest => ⟨hrest.1, .inl hrest.2⟩⟩
    | ok p =>
      obtain ⟨tree, rest⟩ := p
      rw [hparse] at h hyields
      obtain ⟨-, -, hrest⟩ := hyields
      obtain ⟨⟨used, hstarts, hderives⟩, -⟩ := (parsers_sound _).1 (Nat.zero_le _) hparse
      cases rest with
      | finish offset => cases h
      | fault e' => exact absurd trivial hrest
      | token t offset more =>
        cases h
        exact ⟨used, _, hstarts,
          .inr ⟨fun h => h, .inr ⟨t, offset, more, tree, rfl, rfl, hderives⟩⟩⟩

/-- A part that is cut out of a text, from one byte to another one. -/
structure Cut where
  start : Nat
  stop : Nat
  content : List Char

/-- The part starts and stops between two characters, and has the content. -/
def Cut.Fits (text : String) (cut : Cut) : Prop :=
  cut.start ≤ cut.stop ∧ (⟨cut.start⟩ : String.Pos.Raw).IsValid text ∧
    (⟨cut.stop⟩ : String.Pos.Raw).IsValid text ∧
    text.toByteArray.extract cut.start cut.stop = (String.ofList cut.content).toByteArray

/-- The parts of a number at an offset, in front of which it is looked at what is left of the text:
the whole of it, its digits and its suffix. -/
def Numeral.cuts (offset : Nat) (n : Numeral) : List Cut :=
  let digits := offset + utf8Length n.start
  let suffix := digits + utf8Length n.digits
  let stop := suffix + utf8Length n.suffix
  [⟨offset, stop + utf8Length n.rest, n.text ++ n.rest⟩, ⟨offset, stop, n.text⟩,
    ⟨digits, suffix, n.digits⟩, ⟨suffix, stop, n.suffix⟩]

/-- The parts that the scanner cuts out of the text for the token at the head of `c :: cs`. -/
def cuts (offset : Nat) (c : Char) (cs : List Char) : List Cut :=
  if isAsciiDigit c then (scanNumeral (c :: cs)).cuts offset
  else if isNameStart c then
    let name := c :: (scanName cs).1
    [⟨offset, offset + utf8Length name, name⟩]
  else []

theorem Stands.fits {text : String} {offset : Nat} {w : List Char} (h : Stands text offset w) :
    Cut.Fits text ⟨offset, offset + utf8Length w, w⟩ :=
  ⟨Nat.le_add_right _ _, h.cut⟩

theorem Numeral.fits_of_mem_cuts {text : String} {offset : Nat} {n : Numeral}
    (h : Stands text offset (n.text ++ n.rest)) : ∀ cut ∈ n.cuts offset, cut.Fits text := by
  have hlength : offset + utf8Length n.text =
      offset + utf8Length n.start + utf8Length n.digits + utf8Length n.suffix := by
    simp only [Numeral.text, utf8Length_append, Nat.add_assoc]
  have hwhole := h.of_append
  have hdigits : Stands text (offset + utf8Length n.start) (n.digits ++ n.suffix) := by
    rw [Numeral.text, List.append_assoc] at hwhole
    exact hwhole.behind
  simp only [cuts, List.forall_mem_cons, List.not_mem_nil, false_imp_iff, implies_true, and_true]
  refine ⟨?_, ?_, hdigits.of_append.fits, hdigits.behind.fits⟩
  · have hfits := h.fits
    rwa [utf8Length_append, ← Nat.add_assoc, hlength] at hfits
  · have hfits := hwhole.fits
    rwa [hlength] at hfits

theorem Visits.fits_of_mem_cuts {text : String} {ts : List Token} {offset : Nat} {c : Char}
    {cs : List Char} (h : Visits text ts offset c cs) :
    ∀ cut ∈ cuts offset c cs, cut.Fits text := by
  have hstands := h.stands
  unfold cuts
  split
  next =>
    rw [← scanNumeral_parts (c :: cs)] at hstands
    exact Numeral.fits_of_mem_cuts hstands
  next =>
    split
    next =>
      have hname : c :: (scanName cs).1 ++ (scanName cs).2 = c :: cs := by
        rw [List.cons_append, scanName_append]
      rw [← hname] at hstands
      exact List.forall_mem_singleton.mpr hstands.of_append.fits
    next => exact fun _ hcut => absurd hcut List.not_mem_nil

theorem SyntaxError.Fits.isValid {text : String} {e : SyntaxError} (h : e.Fits text) :
    (⟨e.offset⟩ : String.Pos.Raw).IsValid text := by
  cases e with
  | unexpectedCharacter c o => exact (Stands.cut h).1
  | unterminatedLiteral o => exact h.elim (fun h => h.cut.1) fun h => h.cut.1
  | invalidEscape o => exact (Stands.cut h).1
  | invalidCharacter o => exact (Stands.cut h).1
  | invalidNumber number o => exact (Stands.cut h.1).1
  | expected what o =>
    obtain rfl | ⟨ts, c, cs, l, hvisits, -⟩ := h
    · exact String.Pos.Raw.isValid_rawEndPos
    · exact hvisits.stands.cut.1
  | trailingInput o =>
    obtain ⟨-, accepted, rest, t, hsplit, rfl, -⟩ := h
    exact String.Pos.Raw.isValid_iff_exists_append.mpr ⟨accepted, rest, hsplit, rfl⟩

/-- A text is rejected where something is wrong with it: the error points between two characters of
the text, at what it is about. What is in front of trailing input is accepted. Whatever the scanner
cuts out of a text, accepted or not, it cuts between characters. -/
theorem Tree.parse_error_fits (text : String) :
    (∀ e, Tree.parse text = .error e →
      (⟨e.offset⟩ : String.Pos.Raw).IsValid text ∧ e.offset ≤ text.utf8ByteSize ∧ e.Fits text) ∧
    ∀ ts offset c cs, Visits text ts offset c cs → ∀ cut ∈ cuts offset c cs, cut.Fits text := by
  refine ⟨fun e h => ?_, fun ts offset c cs hvisits => hvisits.fits_of_mem_cuts⟩
  have hfits : e.Fits text := by
    obtain ⟨ts, stream, hstarts, hstream⟩ := parse_error_cases h
    obtain rfl | ⟨offset, c, cs, hvisits, hscan⟩ := stream_cases hstarts
    · -- the end of the text
      obtain hfault | ⟨-, ⟨what, rfl⟩ | ⟨t, offset, rest, tree, htoken, -⟩⟩ := hstream
      · cases hfault
      · exact .inl rfl
      · cases htoken
    · cases hl : scanToken offset c cs with
      | error e' =>
        rw [hl] at hscan
        obtain rfl := hscan
        obtain hfault | ⟨hfault, -⟩ := hstream
        · cases hfault
          exact token_fits hvisits.stands hl
        · exact absurd trivial hfault
      | ok l =>
        rw [hl] at hscan
        obtain ⟨rest, rfl⟩ := hscan
        obtain hfault | ⟨-, ⟨what, rfl⟩ | ⟨t, offset', rest', tree, htoken, rfl, hderives⟩⟩ :=
          hstream
        · cases hfault
        · exact .inr ⟨ts, c, cs, l, hvisits, hl⟩
        · cases htoken
          obtain ⟨before, htext, rfl, hsplits⟩ := hvisits.exists_before
          have haccepted : Tree.parse (String.ofList before) = .ok tree :=
            parse_of_splits (by rwa [String.toList_ofList]) (hderives hsplits.real)
          refine ⟨?_, String.ofList before, String.ofList (c :: cs), tree, ?_,
            (utf8Length_eq before).symm, haccepted⟩
          · have hle := hvisits.stands.le_utf8ByteSize
            have hpos := utf8Length_pos (List.cons_ne_nil c cs)
            omega
          · rw [← String.ofList_append, ← htext, String.ofList_toList]
  have hvalid := hfits.isValid
  exact ⟨hvalid, hvalid.le_rawEndPos, hfits⟩

/-- Two numbers side by side, behind a letter of two bytes. -/
theorem parse_error_fits_trailing :
    Tree.parse "é + 1 2" = .error (.trailingInput 7) ∧
      ∃ accepted rest t, "é + 1 2" = accepted ++ rest ∧ accepted.utf8ByteSize = 7 ∧
        Tree.parse accepted = .ok t := by
  have hparse : Tree.parse "é + 1 2" = .error (.trailingInput 7) := by decide +kernel
  obtain ⟨-, -, -, hfits⟩ := (Tree.parse_error_fits "é + 1 2").1 _ hparse
  exact ⟨hparse, hfits⟩

end InterfaceCatalog
