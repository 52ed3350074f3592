import InterfaceCatalog.Proofs.Expression.Lexing

namespace InterfaceCatalog

theorem utf8Length_append (l m : List Char) :
    utf8Length (l ++ m) = utf8Length l + utf8Length m := by
  induction l with
  | nil => simp [utf8Length]
  | cons c l ih =>
    have hcons : ∀ r, utf8Length (c :: r) = c.utf8Size + utf8Length r := fun r => rfl
    rw [List.cons_append, hcons, hcons, ih, Nat.add_assoc]

theorem utf8Length_eq (l : List Char) : utf8Length l = (String.ofList l).utf8ByteSize := by
  induction l with
  | nil => rfl
  | cons c l ih =>
    have hcons : utf8Length (c :: l) = c.utf8Size + utf8Length l := rfl
    have hsplit : String.ofList (c :: l) = String.singleton c ++ String.ofList l := by
      rw [String.singleton_eq_ofList, ← String.ofList_append, List.singleton_append]
    rw [hcons, ih, hsplit, String.utf8ByteSize_append, String.utf8ByteSize_singleton]

theorem utf8Length_toList (text : String) : utf8Length text.toList = text.utf8ByteSize := by
  rw [utf8Length_eq, String.ofList_toList]

theorem utf8Length_pos {l : List Char} (h : l ≠ []) : 0 < utf8Length l := by
  obtain ⟨c, l, rfl⟩ := List.exists_cons_of_ne_nil h
  exact Nat.lt_of_lt_of_le c.utf8Size_pos (Nat.le_add_right _ _)

/-- The text has the characters `w` at an offset. -/
def Stands (text : String) (offset : Nat) (w : List Char) : Prop :=
  ∃ before after, text.toList = before ++ (w ++ after) ∧ utf8Length before = offset

namespace Stands

variable {text : String} {offset : Nat} {v w : List Char}

theorem of_append (h : Stands text offset (v ++ w)) : Stands text offset v := by
  obtain ⟨before, after, htext, hoffset⟩ := h
  exact ⟨before, w ++ after, by rw [htext, List.append_assoc], hoffset⟩

theorem behind (h : Stands text offset (v ++ w)) : Stands text (offset + utf8Length v) w := by
  obtain ⟨before, after, htext, rfl⟩ := h
  exact ⟨before ++ v, after, by simp [htext], utf8Length_append _ _⟩

/-- What stands in a text starts and ends between two characters, and is cut out by its bytes. -/
theorem cut (h : Stands text offset w) :
    (⟨offset⟩ : String.Pos.Raw).IsValid text ∧
    (⟨offset + utf8Length w⟩ : String.Pos.Raw).IsValid text ∧
      text.toByteArray.extract offset (offset + utf8Length w) = (String.ofList w).toByteArray := by
  obtain ⟨before, after, htext, rfl⟩ := h
  have hsplit : text = String.ofList before ++ (String.ofList w ++ String.ofList after) := by
    rw [← String.ofList_append, ← String.ofList_append, ← htext, String.ofList_toList]
  have hlength : ∀ l, (⟨utf8Length l⟩ : String.Pos.Raw) = (String.ofList l).rawEndPos := by
    intro l
    rw [utf8Length_eq]
    rfl
  refine ⟨String.Pos.Raw.isValid_iff_exists_append.mpr ⟨_, _, hsplit, hlength before⟩, ?_, ?_⟩
  · refine String.Pos.Raw.isValid_iff_exists_append.mpr
      ⟨String.ofList (before ++ w), String.ofList after, ?_, ?_⟩
    · rw [hsplit, String.ofList_append, String.append_assoc]
    · rw [← utf8Length_append, hlength]
  · have hbytes : ∀ l, utf8Length l = (String.ofList l).toByteArray.size := utf8Length_eq
    rw [hsplit, String.toByteArray_append, String.toByteArray_append, hbytes, hbytes,
      ← Nat.add_zero (ByteArray.size _), Nat.add_assoc, ByteArray.extract_append_size_add,
      Nat.zero_add]
    exact ByteArray.extract_append_eq_left rfl

theorem le_utf8ByteSize (h : Stands text offset w) : offset + utf8Length w ≤ text.utf8ByteSize := by
  obtain ⟨before, after, htext, rfl⟩ := h
  rw [← utf8Length_toList, htext, utf8Length_append, utf8Length_append]
  omega

end Stands

/-- The scanner takes the tokens `ts` from the text `cs` at an offset, and comes to the text
`rest`. -/
inductive Scans : Nat → List Char → List Token → Nat → List Char → Prop
  | nil (offset : Nat) (cs : List Char) : Scans offset cs [] offset cs
  | token {offset last : Nat} {blanks cs rest : List Char} {c : Char} {l : Lexeme} {ts : List Token}
      (hblanks : ∀ b ∈ blanks, isBlank b) (hc : ¬ isBlank c)
      (hl : scanToken (offset + utf8Length blanks) c cs = .ok l)
      (h : Scans (offset + utf8Length blanks + utf8Length l.text) l.rest ts last rest) :
      Scans offset (blanks ++ c :: cs) (l.token :: ts) last rest

/-- The scanner looks for a token at an offset of the text, where `c :: cs` is left of it, after it
has taken the tokens `ts`. -/
inductive Visits (text : String) (ts : List Token) : Nat → Char → List Char → Prop
  | mk {last : Nat} {blanks cs : List Char} {c : Char}
      (h : Scans 0 text.toList ts last (blanks ++ c :: cs)) (hblanks : ∀ b ∈ blanks, isBlank b)
      (hc : ¬ isBlank c) :
      Visits text ts (last + utf8Length blanks) c cs

theorem scanToken_append {offset : Nat} {c : Char} {cs : List Char} {l : Lexeme}
    (h : scanToken offset c cs = .ok l) : l.text ++ l.rest = c :: cs := by
  unfold scanToken at h
  split at h
  next t n _ =>
    cases h
    exact List.take_append_drop n (c :: cs)
  next =>
    split at h
    next =>
      obtain ⟨q, lit, hq, -, rfl⟩ := scanQuotation_ok h
      obtain ⟨body, -, hcs, -⟩ := scanQuoted_sound hq
      rw [List.cons_append, ← hcs]
    next =>
      split at h
      next =>
        simp only at h
        split at h
        next => cases h; exact scanNumeral_parts _
        next => cases h
      next =>
        split at h
        next =>
          cases h
          rw [List.cons_append, scanName_append]
        next => cases h

/-- A token is the longest one also if the text ends earlier behind it. -/
theorem Munch.of_prefix {w rest rest' : List Char} {t : Token} (h : Munch (w ++ rest) t rest)
    (hr : rest' <+: rest) : Munch (w ++ rest') t rest' := by
  obtain ⟨w', hspells, hcs, hlong⟩ := h
  obtain rfl := List.append_cancel_right hcs
  refine ⟨w, hspells, rfl, fun {t' v} hv hprefix => hlong hv ?_⟩
  exact hprefix.trans ((List.prefix_append_right_inj w).mpr hr)

namespace Scans

variable {offset last : Nat} {cs rest : List Char} {ts : List Token}

theorem exists_before (h : Scans offset cs ts last rest) :
    ∃ before, cs = before ++ rest ∧ last = offset + utf8Length before := by
  induction h with
  | nil offset cs => exact ⟨[], rfl, rfl⟩
  | @token offset last blanks cs rest c l ts hblanks hc hl h ih =>
    obtain ⟨before, hrest, rfl⟩ := ih
    refine ⟨blanks ++ (l.text ++ before), ?_, ?_⟩
    · rw [← scanToken_append hl, hrest]
      simp
    · simp only [utf8Length_append, Nat.add_assoc]

/-- What is in front of a place splits into the tokens that are scanned in front of it. -/
theorem splits {before blanks after : List Char}
    (h : Scans offset (before ++ (blanks ++ after)) ts last (blanks ++ after))
    (hblanks : ∀ b ∈ blanks, isBlank b) : Splits (before ++ blanks) ts := by
  generalize hcs : before ++ (blanks ++ after) = cs at h
  generalize hrest : blanks ++ after = rest at h
  induction h generalizing before with
  | nil offset cs =>
    obtain rfl : before = [] := List.self_eq_append_left.mp (hrest.trans hcs.symm)
    exact .finish hblanks
  | @token offset last blanks' cs rest c l ts hblanks' hc hl h ih =>
    obtain ⟨before', hbefore', -⟩ := h.exists_before
    subst hrest
    have hmunch : Munch (l.text ++ l.rest) l.token l.rest :=
      scanToken_append hl ▸ scanToken_sound hl
    have hprefix : before' ++ blanks <+: l.rest := ⟨after, by rw [hbefore', List.append_assoc]⟩
    have hbefore : before = blanks' ++ (l.text ++ before') := by
      rw [← scanToken_append hl, hbefore', ← List.append_assoc l.text,
        ← List.append_assoc blanks'] at hcs
      exact List.append_cancel_right hcs
    rw [hbefore, List.append_assoc, List.append_assoc]
    exact .token hblanks' (hmunch.of_prefix hprefix) (ih hbefore'.symm rfl)

end Scans

theorem not_isBlank_of_dropWhile {cs ds : List Char} {c : Char}
    (h : cs.dropWhile isBlank = c :: ds) : ¬ isBlank c := by
  have hhead := List.head?_dropWhile_not isBlank cs
  rw [h] at hhead
  simpa using hhead

theorem dropWhile_isBlank_cons {blanks cs : List Char} {c : Char}
    (hblanks : ∀ b ∈ blanks, isBlank b) (hc : ¬ isBlank c) :
    (blanks ++ c :: cs).takeWhile isBlank = blanks ∧
      (blanks ++ c :: cs).dropWhile isBlank = c :: cs :=
  ⟨takeWhile_append_stop hblanks (forall_head_cons hc),
    dropWhile_append_stop hblanks (forall_head_cons hc)⟩

theorem tokensFrom_token {fuel offset : Nat} {blanks cs : List Char} {c : Char}
    (hblanks : ∀ b ∈ blanks, isBlank b) (hc : ¬ isBlank c) :
    tokensFrom (fuel + 1) offset (blanks ++ c :: cs) =
      match scanToken (offset + utf8Length blanks) c cs with
      | .error e => .fault e
      | .ok l => .token l.token (offset + utf8Length blanks)
          (tokensFrom fuel (offset + utf8Length blanks + utf8Length l.text) l.rest) := by
  obtain ⟨htake, hdrop⟩ := @dropWhile_isBlank_cons blanks cs c hblanks hc
  cases hscan : scanToken (offset + utf8Length blanks) c cs with
  | error e => simp only [tokensFrom, htake, hdrop, hscan]
  | ok l => simp only [tokensFrom, htake, hdrop, hscan]

theorem length_rest_lt {offset : Nat} {c : Char} {cs : List Char} {l : Lexeme}
    (h : scanToken offset c cs = .ok l) : l.rest.length < (c :: cs).length := by
  obtain ⟨_, _, -, -, hshorter⟩ := (scanToken_sound h).head
  exact hshorter

/-- A stream goes on as the scanner does. -/
theorem Scans.starts {offset last : Nat} {cs rest : List Char} {ts : List Token}
    (h : Scans offset cs ts last rest) {fuel : Nat} (hfuel : cs.length < fuel) :
    ∃ fuel', rest.length < fuel' ∧
      (tokensFrom fuel offset cs).Starts ts (tokensFrom fuel' last rest) := by
  induction h generalizing fuel with
  | nil offset cs => exact ⟨fuel, hfuel, .nil _⟩
  | @token offset last blanks cs rest c l ts hblanks hc hl h ih =>
    obtain ⟨n, rfl⟩ := Nat.exists_eq_succ_of_ne_zero (Nat.ne_of_gt (Nat.zero_lt_of_lt hfuel))
    have hshorter := length_rest_lt hl
    rw [List.length_append] at hfuel
    have hn : l.rest.length < n := by omega
    obtain ⟨fuel', hfuel', hstarts⟩ := ih hn
    refine ⟨fuel', hfuel', ?_⟩
    rw [tokensFrom_token hblanks hc, hl]
    exact .cons _ _ hstarts

theorem Tokens.Starts.eq_of_nil {ts us : Tokens} (h : ts.Starts [] us) : us = ts := by
  cases h
  rfl

/-- Whatever a stream comes to, the scanner comes to. -/
theorem exists_scans {fuel offset : Nat} {cs : List Char} {ts : List Token} {stream : Tokens}
    (hfuel : cs.length < fuel) (h : (tokensFrom fuel offset cs).Starts ts stream) :
    ∃ fuel' last rest, Scans offset cs ts last rest ∧ rest.length < fuel' ∧
      stream = tokensFrom fuel' last rest := by
  induction ts generalizing fuel offset cs with
  | nil =>
    obtain rfl := h.eq_of_nil
    exact ⟨fuel, offset, cs, .nil _ _, hfuel, rfl⟩
  | cons t ts ih =>
    obtain ⟨n, rfl⟩ := Nat.exists_eq_succ_of_ne_zero (Nat.ne_of_gt (Nat.zero_lt_of_lt hfuel))
    have hparts := List.takeWhile_append_dropWhile (p := isBlank) (l := cs)
    cases hdrop : cs.dropWhile isBlank with
    | nil =>
      rw [tokensFrom, hdrop] at h
      cases h
    | cons c ds =>
      have hc : ¬ isBlank c := not_isBlank_of_dropWhile hdrop
      rw [hdrop] at hparts
      rw [← hparts, List.length_append] at hfuel
      rw [← hparts, tokensFrom_token forall_mem_takeWhile hc] at h
      split at h
      next => cases h
      next l hl =>
        cases h with
        | cons _ _ h =>
          have hshorter := length_rest_lt hl
          obtain ⟨fuel', last, rest, hscans, hfuel', hstream⟩ := ih (by omega) h
          refine ⟨fuel', last, rest, ?_, hfuel', hstream⟩
          rw [← hparts]
          exact .token forall_mem_takeWhile hc hl hscans

namespace Visits

variable {text : String} {ts : List Token} {offset : Nat} {c : Char} {cs : List Char}

/-- What is in front of a token splits into the tokens that are scanned before it. -/
theorem exists_before (h : Visits text ts offset c cs) :
    ∃ before, text.toList = before ++ c :: cs ∧ utf8Length before = offset ∧ Splits before ts := by
  cases h with
  | @mk last blanks cs c h hblanks hc =>
    obtain ⟨before, htext, rfl⟩ := h.exists_before
    refine ⟨before ++ blanks, by rw [htext, List.append_assoc], ?_, ?_⟩
    · rw [utf8Length_append, Nat.zero_add]
    · rw [htext] at h
      exact h.splits hblanks

theorem stands (h : Visits text ts offset c cs) : Stands text offset (c :: cs) := by
  obtain ⟨before, htext, hoffset, -⟩ := h.exists_before
  exact ⟨before, [], by rw [htext, List.append_nil], hoffset⟩

/-- The stream of a text goes on with the token at the place, or with its fault. -/
theorem starts (h : Visits text ts offset c cs) : ∃ stream, (tokens text).Starts ts stream ∧
    match scanToken offset c cs with
    | .error e => stream = .fault e
    | .ok l => ∃ rest, stream = .token l.token offset rest := by
  cases h with
  | @mk last blanks cs c h hblanks hc =>
    obtain ⟨fuel, hfuel, hstarts⟩ := h.starts (Nat.lt_succ_self _)
    obtain ⟨n, rfl⟩ := Nat.exists_eq_succ_of_ne_zero (Nat.ne_of_gt (Nat.zero_lt_of_lt hfuel))
    refine ⟨_, hstarts, ?_⟩
    rw [tokensFrom_token hblanks hc]
    cases scanToken (last + utf8Length blanks) c cs with
    | error e => rfl
    | ok l => exact ⟨_, rfl⟩

end Visits

/-- What a stream comes to stands at the end of the text, or is scanned at a place that is
visited. -/
theorem stream_cases {text : String} {ts : List Token} {stream : Tokens}
    (h : (tokens text).Starts ts stream) :
    stream = .finish text.utf8ByteSize ∨ ∃ offset c cs, Visits text ts offset c cs ∧
      match scanToken offset c cs with
      | .error e => stream = .fault e
      | .ok l => ∃ rest, stream = .token l.token offset rest := by
  obtain ⟨fuel, last, rest, hscans, hfuel, rfl⟩ := exists_scans (Nat.lt_succ_self _) h
  obtain ⟨n, rfl⟩ := Nat.exists_eq_succ_of_ne_zero (Nat.ne_of_gt (Nat.zero_lt_of_lt hfuel))
  have hparts := List.takeWhile_append_dropWhile (p := isBlank) (l := rest)
  cases hdrop : rest.dropWhile isBlank with
  | nil =>
    rw [hdrop, List.append_nil] at hparts
    obtain ⟨before, htext, rfl⟩ := hscans.exists_before
    left
    rw [tokensFrom, hdrop, hparts, ← utf8Length_toList, htext, utf8Length_append, Nat.zero_add]
  | cons c cs =>
    have hc : ¬ isBlank c := not_isBlank_of_dropWhile hdrop
    rw [hdrop] at hparts
    rw [← hparts] at hscans ⊢
    refine .inr ⟨_, c, cs, .mk hscans forall_mem_takeWhile hc, ?_⟩
    rw [tokensFrom_token forall_mem_takeWhile hc]
    cases scanToken (last + utf8Length (rest.takeWhile isBlank)) c cs with
    | error e => rfl
    | ok l => exact ⟨_, rfl⟩

end InterfaceCatalog
