import InterfaceCatalog.Proofs.Expression.Spelling

namespace InterfaceCatalog

theorem scanSymbol?_sound {cs : List Char} {t : Token} {n : Nat}
    (h : scanSymbol? cs = some (t, n)) : (t, cs.take n) ∈ symbols ∧ n ≤ cs.length ∧ 0 < n := by
  unfold scanSymbol? at h
  split at h <;> cases h <;> simp [symbols]

/-- What follows a character can only make a symbol longer. -/
theorem scanSymbol?_eq_none {c : Char} {rest : List Char} (h : scanSymbol? (c :: rest) = none) :
    scanSymbol? [c] = none := by
  unfold scanSymbol? at h
  split at h <;> try cases h
  next hne =>
    unfold scanSymbol?
    split
    all_goals first
      | rfl
      | next heq => cases heq <;> exact absurd rfl (by solve_by_elim)

theorem scanSymbol?_longest {cs w : List Char} {t : Token} (h : (t, w) ∈ symbols) (hw : w <+: cs) :
    ∃ t' n, scanSymbol? cs = some (t', n) ∧ w.length ≤ n := by
  obtain ⟨rest, rfl⟩ := hw
  have length : ∀ p ∈ symbols, p.2.length = 1 ∨ p.2.length = 2 := by decide
  have single : ∀ p ∈ symbols, p.2.length = 1 → scanSymbol? p.2 ≠ none := by decide
  have double : ∀ p ∈ symbols, p.2.length = 2 → scanSymbol? (p.2 ++ rest) = some (p.1, 2) := by
    simp only [symbols, List.forall_mem_cons, List.not_mem_nil, false_imp_iff,
      implies_true, and_true]
    repeat' apply And.intro
    all_goals exact fun h => by first | rfl | cases h
  obtain hone | htwo := length _ h
  · obtain ⟨c, rfl⟩ := List.length_eq_one_iff.mp hone
    cases hscan : scanSymbol? (c :: rest) with
    | none => exact absurd (scanSymbol?_eq_none hscan) (single _ h rfl)
    | some p => exact ⟨p.1, p.2, hscan, (scanSymbol?_sound hscan).2.2⟩
  · exact ⟨t, 2, double _ h htwo, Nat.le_of_eq htwo⟩

theorem scanName_append (cs : List Char) : (scanName cs).1 ++ (scanName cs).2 = cs := by
  induction cs with
  | nil => rfl
  | cons c cs ih =>
    unfold scanName
    split
    next => exact congrArg (c :: ·) ih
    next => rfl

theorem scanName_nameTail (cs : List Char) : NameTail (scanName cs).1 := by
  induction cs with
  | nil => exact .nil
  | cons c cs ih =>
    unfold scanName
    split
    next h =>
      by_cases hc : isNamePart c
      · exact .part hc ih
      · -- a dot: the segment behind it is not empty
        simp only [hc, Bool.false_or, Bool.and_eq_true, beq_iff_eq] at h
        obtain ⟨rfl, hhead⟩ := h
        cases cs with
        | nil => cases hhead
        | cons d ds =>
          have hd : isNameStart d := hhead
          have hscan : (scanName (d :: ds)).1 = d :: (scanName ds).1 := by
            simp [scanName, isNamePart_of_isNameStart hd]
          rw [hscan] at ih
          have htail : NameTail ('.' :: (scanName (d :: ds)).1) := hscan ▸ .dot hd ih
          exact htail
    next => exact .nil

theorem scanName_dot {c : Char} (cs : List Char) (hc : isNameStart c) :
    (scanName ('.' :: c :: cs)).1 = '.' :: (scanName (c :: cs)).1 := by
  simp [scanName, hc]

theorem scanName_longest {w cs : List Char} (h : NameTail w) (hw : w <+: cs) :
    w.length ≤ (scanName cs).1.length := by
  induction h generalizing cs with
  | nil => exact Nat.zero_le _
  | @part c w hc h ih =>
    obtain ⟨rest, rfl⟩ := hw
    have hscan := ih (List.prefix_append w rest)
    simp only [scanName, List.cons_append, hc, Bool.true_or, if_true, List.length_cons]
    omega
  | @dot c w hc h ih =>
    obtain ⟨rest, rfl⟩ := hw
    have hscan := ih (List.prefix_append (c :: w) rest)
    have htaken := scanName_dot (w ++ rest) hc
    rw [← List.cons_append, ← List.cons_append] at htaken
    simp only [htaken, List.length_cons] at hscan ⊢
    omega

theorem scanName_stop {w rest : List Char} (h : NameTail w)
    (hr : ∀ c ∈ rest.head?, ¬ isNamePart c ∧ c ≠ '.') : (scanName (w ++ rest)).1 = w := by
  induction h with
  | nil =>
    cases rest with
    | nil => rfl
    | cons c rest =>
      obtain ⟨hpart, hdot⟩ := hr c rfl
      simp [scanName, hpart, hdot]
  | part hc h ih => simp [scanName, hc, ih]
  | @dot c w hc h ih =>
    have htaken := scanName_dot (w ++ rest) hc
    rw [← List.cons_append, ← List.cons_append] at htaken
    rw [htaken, ih]

theorem scanQuoted_sound {quote : Char} {cs : List Char} {q : Quotation}
    (h : scanQuoted quote cs = .ok q) :
    ∃ body, q.text = body ++ [quote] ∧ cs = q.text ++ q.rest ∧ Encodes quote body q.content := by
  fun_induction scanQuoted quote cs generalizing q with
  | case1 => cases h
  | case2 cs =>
    cases h
    exact ⟨[], rfl, rfl, .nil⟩
  | case3 => cases h
  | case4 => cases h
  | case5 e rest d hd q' hq' hquote ih =>
    cases h
    obtain ⟨body, htext, hrest, hcontent⟩ := ih hq'
    refine ⟨'\\' :: e :: body, ?_, ?_, .escape hd hcontent⟩
    · simp [Quotation.cons, htext]
    · simp [Quotation.cons, hrest]
  | case6 => cases h
  | case7 c cs hquote hslash q' hq' ih =>
    cases h
    obtain ⟨body, htext, hrest, hcontent⟩ := ih hq'
    refine ⟨c :: body, ?_, ?_, .plain hquote hslash hcontent⟩
    · simp [Quotation.cons, htext]
    · simp [Quotation.cons, hrest]
  | case8 => cases h

theorem scanQuoted_complete {quote : Char} (hquote : quote ≠ '\\') {body content : List Char}
    (h : Encodes quote body content) (rest : List Char) :
    scanQuoted quote (body ++ quote :: rest) = .ok ⟨content, body ++ [quote], rest⟩ := by
  induction h with
  | nil =>
    unfold scanQuoted
    simp
  | plain hc hslash h ih =>
    rw [List.cons_append]
    unfold scanQuoted
    simp [hc, hslash, ih, Quotation.cons]
  | escape he h ih =>
    rw [List.cons_append, List.cons_append]
    unfold scanQuoted
    simp [Ne.symm hquote, he, ih, Quotation.cons]

end InterfaceCatalog
