import InterfaceCatalog.Expression.Value
import Mathlib.Data.List.Chain

namespace InterfaceCatalog

def isOctalDigit (c : Char) : Bool :=
  '0' ≤ c && c ≤ '7'

def cEscape? : Char → Option Char
  | '\\' => some '\\'
  | '"' => some '"'
  | 'n' => some '\n'
  | 't' => some '\t'
  | 'r' => some '\r'
  | _ => none

/-- The octal digits at the head of a text, at most so many of them. -/
def octalDigits (most : Nat) (cs : List Char) : List Char :=
  (cs.take most).takeWhile isOctalDigit

/-- The text behind an opening quote, up to the quote that ends it, stands for character codes. -/
inductive CReads : List Char → List Nat → Prop
  | finish : CReads ['"'] []
  | plain {c : Char} {cs : List Char} {codes : List Nat} (hquote : c ≠ '"') (hslash : c ≠ '\\')
      (h : CReads cs codes) : CReads (c :: cs) (c.toNat :: codes)
  | escape {e c : Char} {cs : List Char} {codes : List Nat} (he : cEscape? e = some c)
      (h : CReads cs codes) : CReads ('\\' :: e :: cs) (c.toNat :: codes)
  | octal {cs : List Char} {codes : List Nat} (hdigits : octalDigits 3 cs ≠ [])
      (h : CReads (cs.drop (octalDigits 3 cs).length) codes) :
      CReads ('\\' :: cs) (ofDigits 8 (octalDigits 3 cs) :: codes)

/-- The text is one literal, which denotes the character codes. -/
def CDenotes (text : String) (codes : List Nat) : Prop :=
  ∃ cs, text.toList = '"' :: cs ∧ CReads cs codes

theorem octalDigits_eq_nil {most : Nat} {cs : List Char} (h : ∀ c ∈ cs.head?, ¬ isOctalDigit c) :
    octalDigits most cs = [] := by
  cases cs with
  | nil => simp [octalDigits]
  | cons c cs =>
    cases most with
    | zero => rfl
    | succ most => simp [octalDigits, h c rfl]

theorem octalDigits_cons {most : Nat} {c : Char} (cs : List Char) (h : isOctalDigit c) :
    octalDigits (most + 1) (c :: cs) = c :: octalDigits most cs := by
  simp [octalDigits, h]

theorem cEscape?_eq_none {e : Char} (h : isOctalDigit e) : cEscape? e = none := by
  unfold cEscape?
  split
  all_goals first | rfl | exact absurd h (by decide)

/-- No escape is both a simple and an octal one, and the octal ones are taken as long as they go. -/
theorem CReads.unique {cs : List Char} {codes others : List Nat} (h : CReads cs codes)
    (h' : CReads cs others) : codes = others := by
  have simple_or_octal : ∀ {e c cs}, cEscape? e = some c → octalDigits 3 (e :: cs) = [] := by
    intro e c cs he
    refine octalDigits_eq_nil fun d hd hoctal => ?_
    cases hd
    rw [cEscape?_eq_none hoctal] at he
    cases he
  induction h generalizing others with
  | finish =>
    cases h' with
    | finish => rfl
    | plain hquote => exact absurd rfl hquote
  | plain hquote hslash h ih =>
    cases h' with
    | finish => exact absurd rfl hquote
    | plain _ _ h' => rw [ih h']
    | escape | octal => exact absurd rfl hslash
  | escape he h ih =>
    cases h' with
    | plain _ hslash => exact absurd rfl hslash
    | escape he' h' =>
      cases he.symm.trans he'
      rw [ih h']
    | octal hdigits => exact absurd (simple_or_octal he) hdigits
  | octal hdigits h ih =>
    cases h' with
    | plain _ hslash => exact absurd rfl hslash
    | escape he => exact absurd (simple_or_octal he) hdigits
    | octal _ h' => rw [ih h']

/-- The text of a string behind its opening quote. -/
def quotedTail (cs : List Char) : List Char :=
  cs.flatMap (escapeChar '"') ++ ['"']

/-- The codes of a string in which NUL takes the octal digits behind it, at most two, for its
own. -/
def mergedCodes : List Char → List Nat
  | [] => []
  | c :: cs =>
    if c = '\x00' then
      ofDigits 8 (octalDigits 2 cs) :: mergedCodes (cs.drop (octalDigits 2 cs).length)
    else c.toNat :: mergedCodes cs
termination_by cs => cs.length

theorem quotedTail_cons (c : Char) (cs : List Char) :
    quotedTail (c :: cs) = escapeChar '"' c ++ quotedTail cs := by
  unfold quotedTail
  rw [List.flatMap_cons, List.append_assoc]

/-- A character other than NUL is written as a simple escape, or as itself. -/
theorem escapeChar_cases {c : Char} (hc : c ≠ '\x00') :
    (∃ e, escapeChar '"' c = ['\\', e] ∧ cEscape? e = some c) ∨
      escapeChar '"' c = [c] ∧ c ≠ '"' ∧ c ≠ '\\' := by
  unfold escapeChar
  split_ifs with hslash hnewline htab hreturn hquote
  · exact .inl ⟨'\\', rfl, by rw [hslash]; rfl⟩
  · exact .inl ⟨'n', rfl, by rw [hnewline]; rfl⟩
  · exact .inl ⟨'t', rfl, by rw [htab]; rfl⟩
  · exact .inl ⟨'r', rfl, by rw [hreturn]; rfl⟩
  · exact .inl ⟨c, rfl, by rw [hquote]; rfl⟩
  · exact .inr ⟨rfl, hquote, hslash⟩

theorem escapeChar_octal {c : Char} (h : isOctalDigit c) : escapeChar '"' c = [c] := by
  have hnul : c ≠ '\x00' := fun hc => absurd h (hc ▸ by decide)
  obtain ⟨e, -, he⟩ | ⟨hwritten, -, -⟩ := escapeChar_cases hnul
  · -- No simple escape stands for a digit.
    unfold cEscape? at he
    split at he
    all_goals first | (cases he; exact absurd h (by decide)) | cases he
  · exact hwritten

theorem escapeChar_head {c : Char} (h : ¬ isOctalDigit c) :
    ∃ d ds, escapeChar '"' c = d :: ds ∧ ¬ isOctalDigit d := by
  by_cases hc : c = '\x00'
  · subst hc
    exact ⟨'\\', ['0'], rfl, by decide⟩
  · obtain ⟨e, hwritten, -⟩ | ⟨hwritten, -, -⟩ := escapeChar_cases hc
    · exact ⟨_, _, hwritten, by decide⟩
    · exact ⟨_, _, hwritten, h⟩

/-- Octal digits are written as themselves, and what is written for another character
begins with none. -/
theorem octalDigits_quotedTail (most : Nat) (cs : List Char) :
    octalDigits most (quotedTail cs) = octalDigits most cs := by
  induction most generalizing cs with
  | zero => rfl
  | succ most ih =>
    cases cs with
    | nil =>
      have hquote : ∀ c ∈ (quotedTail []).head?, ¬ isOctalDigit c := by
        rintro _ ⟨⟩
        decide
      rw [octalDigits_eq_nil hquote, octalDigits_eq_nil (by simp)]
    | cons c cs =>
      rw [quotedTail_cons]
      by_cases hc : isOctalDigit c
      · rw [escapeChar_octal hc, List.singleton_append, octalDigits_cons _ hc,
          octalDigits_cons _ hc, ih]
      · obtain ⟨d, ds, hwritten, hd⟩ := escapeChar_head hc
        rw [hwritten, octalDigits_eq_nil, octalDigits_eq_nil]
        · rintro _ ⟨⟩
          exact hc
        · rintro _ ⟨⟩
          exact hd

theorem drop_quotedTail (most : Nat) (cs : List Char) :
    (quotedTail cs).drop (octalDigits most cs).length =
      quotedTail (cs.drop (octalDigits most cs).length) := by
  induction most generalizing cs with
  | zero => rfl
  | succ most ih =>
    cases cs with
    | nil => rfl
    | cons c cs =>
      by_cases hc : isOctalDigit c
      · rw [octalDigits_cons _ hc, quotedTail_cons, escapeChar_octal hc]
        exact ih cs
      · have hnone : octalDigits (most + 1) (c :: cs) = [] := by
          refine octalDigits_eq_nil ?_
          rintro _ ⟨⟩
          exact hc
        rw [hnone]
        rfl

theorem reads_quotedTail (cs : List Char) : CReads (quotedTail cs) (mergedCodes cs) := by
  fun_induction mergedCodes cs with
  | case1 => exact .finish
  | case2 cs ih =>
    -- The zero of the escape is the first of its digits, and denotes nothing in
    -- front of the others.
    have hzero : octalDigits 3 ('0' :: quotedTail cs) = '0' :: octalDigits 2 cs := by
      rw [octalDigits_cons _ (by decide), octalDigits_quotedTail]
    have hvalue : ofDigits 8 ('0' :: octalDigits 2 cs) = ofDigits 8 (octalDigits 2 cs) := rfl
    have hrest : CReads (('0' :: quotedTail cs).drop (octalDigits 3 ('0' :: quotedTail cs)).length)
        (mergedCodes (cs.drop (octalDigits 2 cs).length)) := by
      rw [hzero, List.length_cons, List.drop_succ_cons, drop_quotedTail]
      exact ih
    have hread := CReads.octal (by rw [hzero]; exact List.cons_ne_nil _ _) hrest
    rw [hzero, hvalue] at hread
    exact hread
  | case3 c cs hc ih =>
    rw [quotedTail_cons]
    obtain ⟨e, hwritten, he⟩ | ⟨hwritten, hquote, hslash⟩ := escapeChar_cases hc
    · rw [hwritten]
      exact .escape he ih
    · rw [hwritten]
      exact .plain hquote hslash ih

theorem length_mergedCodes_le (cs : List Char) : (mergedCodes cs).length ≤ cs.length := by
  fun_induction mergedCodes cs with
  | case1 => exact Nat.le_refl _
  | case2 cs ih =>
    rw [List.length_drop] at ih
    simp only [List.length_cons]
    omega
  | case3 c cs hc ih => exact Nat.succ_le_succ ih

/-- Nothing is merged if and only if no NUL stands in front of an octal digit. -/
theorem mergedCodes_eq_iff (cs : List Char) : mergedCodes cs = cs.map Char.toNat ↔
    cs.IsChain fun c d => c = '\x00' → ¬ isOctalDigit d := by
  fun_induction mergedCodes cs with
  | case1 => simp
  | case2 cs ih =>
    rw [List.isChain_cons, List.map_cons]
    by_cases hdigits : ∀ d ∈ cs.head?, ¬ isOctalDigit d
    · rw [octalDigits_eq_nil hdigits] at ih ⊢
      have hzero : ofDigits 8 [] = '\x00'.toNat := rfl
      rw [hzero, List.cons.injEq]
      exact and_congr ⟨fun _ d hd _ => hdigits d hd, fun _ => rfl⟩ ih
    · -- A digit that is merged is missing: the codes are fewer than the characters.
      obtain ⟨d, ds, rfl, hd⟩ : ∃ d ds, cs = d :: ds ∧ isOctalDigit d := by
        cases cs with
        | nil => simp at hdigits
        | cons d ds => exact ⟨d, ds, rfl, by simpa using hdigits⟩
      have hshort := length_mergedCodes_le ((d :: ds).drop (octalDigits 2 (d :: ds)).length)
      rw [octalDigits_cons _ hd, List.length_cons, List.drop_succ_cons, List.length_drop] at hshort
      refine ⟨fun h => ?_, fun h => absurd hd (h.1 d rfl rfl)⟩
      have hlength := congrArg List.length h
      simp only [octalDigits_cons _ hd, List.length_cons, List.length_map,
        List.drop_succ_cons] at hlength
      omega
  | case3 c cs hc ih =>
    rw [List.isChain_cons, List.map_cons, List.cons.injEq]
    exact and_congr ⟨fun _ d _ h => absurd h hc, fun _ => rfl⟩ ih

theorem cDenotes_quoted_iff (cs : List Char) (codes : List Nat) :
    CDenotes (quoted '"' cs) codes ↔ codes = mergedCodes cs := by
  have htext : (quoted '"' cs).toList = '"' :: quotedTail cs := String.toList_ofList
  constructor
  · rintro ⟨tail, htail, hreads⟩
    rw [htext, List.cons.injEq] at htail
    exact (htail.2 ▸ hreads).unique (reads_quotedTail cs)
  · rintro rfl
    exact ⟨_, htext, reads_quotedTail cs⟩

/-- The text of a string is one literal of C, which denotes its characters with those merged
that an octal escape takes, and so the string itself if and only if no NUL of it stands in front
of an octal digit. -/
theorem Value.cText_string (s : String) :
    (∀ codes, CDenotes (Value.string s).cText codes ↔ codes = mergedCodes s.toList) ∧
      (CDenotes (Value.string s).cText (s.toList.map Char.toNat) ↔
        s.toList.IsChain fun c d => c = '\x00' → ¬ isOctalDigit d) := by
  refine ⟨cDenotes_quoted_iff s.toList, (cDenotes_quoted_iff s.toList _).trans ?_⟩
  rw [eq_comm]
  exact mergedCodes_eq_iff s.toList

/-- A NUL in front of the digit one is read as one character. -/
theorem Value.cText_merged : (Value.string "\x001").cText = "\"\\01\"" ∧
    CDenotes "\"\\01\"" [1] ∧ ¬ CDenotes "\"\\01\"" ("\x001".toList.map Char.toNat) := by
  have hmerged : mergedCodes "\x001".toList = [1] := by decide +kernel
  have hdenotes := cDenotes_quoted_iff "\x001".toList
  rw [hmerged] at hdenotes
  exact ⟨rfl, (hdenotes _).mpr rfl, fun h => absurd ((hdenotes _).mp h) (by decide)⟩

end InterfaceCatalog
