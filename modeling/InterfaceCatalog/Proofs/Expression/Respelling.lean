import InterfaceCatalog.Proofs.Expression.Canonical

namespace InterfaceCatalog

/-- The literal that the text of a literal is read as. -/
def Literal.respelled : Literal → Literal
  | .value (.float (.infinite false)) => .name "inff"
  | .value (.double (.infinite false)) => .name "inf"
  | l => l

def Literal.IsOverflow (l : Literal) : Prop :=
  l = .value (.float (.infinite false)) ∨ l = .value (.double (.infinite false))

namespace Tree

def respelled : Tree → Tree
  | literal l => literal l.respelled
  | unary o t => unary o t.respelled
  | binary o s t => binary o s.respelled t.respelled

/-- No leaf is a number beyond the range of its format. -/
def IsBounded : Tree → Prop
  | literal l => ¬ l.IsOverflow
  | unary _ t => t.IsBounded
  | binary _ s t => s.IsBounded ∧ t.IsBounded

end Tree

theorem Literal.text_respelled (l : Literal) : l.respelled.text = l.text := by
  unfold respelled
  split
  · decide
  · decide
  · rfl

theorem Literal.respelled_eq_self_iff (l : Literal) : l.respelled = l ↔ ¬ l.IsOverflow := by
  unfold respelled IsOverflow
  split
  next => simp
  next => simp
  next hfloat hdouble =>
    refine ⟨fun _ h => ?_, fun _ => rfl⟩
    obtain rfl | rfl := h
    · exact hfloat rfl
    · exact hdouble rfl

theorem Literal.respelled_plain_of_plain {l : Literal} (h : l.IsPlain) : l.respelled.IsPlain := by
  have hself : ¬ l.IsOverflow := by
    rintro (rfl | rfl) <;> obtain ⟨i, hi⟩ := h <;> cases hi
  rwa [(respelled_eq_self_iff l).mpr hself]

theorem Decimal.toBinary_cases (f : FloatFormat) (d : Decimal) :
    (∃ i, d.toBinary f false = .finite false i) ∨ d.toBinary f false = .infinite false := by
  unfold toBinary
  simp only
  split
  next h => exact .inl ⟨_, rfl⟩
  next => exact .inr rfl

theorem suffixInteger?_nonneg {suffix : List Char} {number : Nat} {n : Integer}
    (h : suffixInteger? suffix number = some n) : 0 ≤ n.val := by
  obtain ⟨k, -, hk⟩ := List.exists_of_findSome?_eq_some h
  obtain ⟨-, hval⟩ := Integer.of?_eq_some_iff.mp hk
  omega

theorem Denotes.respelled_plain {w : List Char} {v : Value} (h : Denotes w v) :
    (Literal.value v).respelled.IsPlain := by
  cases h with
  | decimal hdigits h hn => exact Literal.respelled_plain_of_plain fun _ => suffixInteger?_nonneg hn
  | hexadecimal hx hdigits h hn =>
    exact Literal.respelled_plain_of_plain fun _ => suffixInteger?_nonneg hn
  | @double text d h hd =>
    obtain ⟨i, hi⟩ | hi := d.toBinary_cases .double
    · exact Literal.respelled_plain_of_plain ⟨i, hi⟩
    · rw [hi]
      exact ⟨isName_of_all (by decide) (by decide), by decide⟩
  | @float text mark d h hd hm =>
    obtain ⟨i, hi⟩ | hi := d.toBinary_cases .single
    · exact Literal.respelled_plain_of_plain ⟨i, hi⟩
    · rw [hi]
      exact ⟨isName_of_all (by decide) (by decide), by decide⟩

theorem ofName_plain {w : List Char} (h : IsName w) : (Literal.ofName w).IsPlain := by
  unfold Literal.ofName
  split
  next => trivial
  next => trivial
  next => trivial
  next htrue hfalse hnull =>
    refine ⟨?_, htrue, hfalse, hnull⟩
    rwa [String.toList_ofList]

theorem Spells.respelled_plain {l : Literal} {w : List Char} (h : Spells (.literal l) w) :
    l.respelled.IsPlain := by
  cases h with
  | symbol h => simp [symbols] at h
  | name h => exact Literal.respelled_plain_of_plain (ofName_plain h)
  | string h => exact Literal.respelled_plain_of_plain trivial
  | char h => exact Literal.respelled_plain_of_plain trivial
  | number h => exact h.respelled_plain

theorem Splits.spelled {cs : List Char} {ts : List Token} (h : Splits cs ts) :
    ∀ t ∈ ts, ∃ w, Spells t w := by
  induction h with
  | finish h => simp
  | token hblanks ht hts ih =>
    obtain ⟨w, hw, -⟩ := ht
    exact List.forall_mem_cons.mpr ⟨⟨w, hw⟩, ih⟩

namespace Tree

theorem isCompound_respelled (t : Tree) : t.respelled.isCompound = t.isCompound := by
  cases t <;> rfl

theorem text_respelled (t : Tree) : t.respelled.text = t.text := by
  induction t with
  | literal l => exact l.text_respelled
  | unary o t ih => simp only [respelled, text, isCompound_respelled, ih]
  | binary o s t ihs iht => simp only [respelled, text, isCompound_respelled, ihs, iht]

theorem respelled_eq_self_iff (t : Tree) : t.respelled = t ↔ t.IsBounded := by
  induction t with
  | literal l => simp only [respelled, literal.injEq, l.respelled_eq_self_iff, IsBounded]
  | unary o t ih => simp only [respelled, unary.injEq, true_and, ih, IsBounded]
  | binary o s t ihs iht => simp only [respelled, binary.injEq, true_and, ihs, iht, IsBounded]

/-- The leaves of an expression are spelled by its tokens. -/
theorem respelled_plain {level : Nat} {ts : List Token} {t : Tree} (h : Derives level ts t)
    (hts : ∀ tok ∈ ts, ∃ w, Spells tok w) : t.respelled.IsPlain := by
  induction h with
  | literal l =>
    obtain ⟨w, hw⟩ := hts _ (List.mem_singleton_self _)
    exact hw.respelled_plain
  | parens h ih => exact ih fun tok htok => hts tok (by simp [htok])
  | prefixed ho htok h ih =>
    have hne : ∀ o ∈ prefixOperators, o ≠ .invalid := by decide
    exact ⟨hne _ ho, ih fun tok htok => hts tok (by simp [htok])⟩
  | @binary level os tok o ts us t u hos ho htok ht hu iht ihu =>
    have hlevel : o.level? = some level := level?_eq_some_iff.mpr ⟨os, hos, ho⟩
    have hne : o ≠ .invalid := by
      rintro rfl
      cases hlevel
    exact ⟨hne, iht fun tok htok => hts tok (by simp [htok]), ihu fun tok htok =>
      hts tok (by simp [htok])⟩
  | tighter h ih => exact ih hts

/-- The canonical text of a tree that was read can be read: infinity becomes a name, which has the
same text, and the tree comes back if none of its numbers is beyond the range of its format. -/
theorem parse_reread {source : String} {t : Tree} (h : Tree.parse source = .ok t) :
    Tree.parse t.text = .ok t.respelled ∧ t.respelled.text = t.text ∧
      (Tree.parse t.text = .ok t ↔ t.IsBounded) := by
  obtain ⟨offset, ts, hstarts, hderives⟩ := reads_of_parse h
  have hsource : Splits source.toList ts := tokensFrom_sound (Nat.lt_succ_self _) hstarts
  have hplain : t.respelled.IsPlain := respelled_plain (hderives hsource.real) hsource.spelled
  have hend : Closes [] := fun c hc => by cases hc
  have hsplits : Splits (t.respelled.text.toList ++ []) (t.respelled.tokens ++ []) :=
    splits_text hplain hend (.finish (List.forall_mem_nil _))
  rw [List.append_nil, List.append_nil, text_respelled] at hsplits
  have hread : Tree.parse t.text = .ok t.respelled :=
    parse_of_splits hsplits (derives_tokens hplain)
  refine ⟨hread, text_respelled t, ?_⟩
  rw [hread, Except.ok.injEq]
  exact respelled_eq_self_iff t

/-- A single and a double beyond their ranges, and a double within. -/
def overflowing : Tree :=
  .binary .add (.literal (.value (.float (.infinite false))))
    (.unary .minus (.literal (.value (.double (.infinite false)))))

theorem parse_overflowing : Tree.parse "4e38f + -1.8e308" = .ok overflowing := by
  decide +kernel

theorem parse_reread_overflowing : Tree.parse "4e38f + -1.8e308" = .ok overflowing ∧
    overflowing.text = "inff + (-inf)" ∧ ¬ overflowing.IsBounded ∧
    Tree.parse "inff + (-inf)" = .ok (.binary .add (.literal (.name "inff"))
      (.unary .minus (.literal (.name "inf")))) := by
  have htext : overflowing.text = "inff + (-inf)" := by decide
  obtain ⟨hread, -, -⟩ := parse_reread parse_overflowing
  rw [htext] at hread
  exact ⟨parse_overflowing, htext, fun h => h.1 (.inl rfl), hread⟩

def infinity : Tree :=
  .literal (.value (.double (.infinite false)))

/-- The text of infinity is read as a name. -/
theorem reread_infinity : Tree.parse "1e999" = .ok infinity ∧
    Tree.parse infinity.text = .ok (.literal (.name "inf")) ∧
      Tree.parse infinity.text ≠ .ok infinity := by
  decide

end Tree

end InterfaceCatalog
