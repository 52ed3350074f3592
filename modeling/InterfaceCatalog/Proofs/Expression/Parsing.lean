import InterfaceCatalog.Expression.Parser
import InterfaceCatalog.Proofs.Expression.Grammar

namespace InterfaceCatalog

/-- A stream starts with some tokens and goes on with another stream. -/
inductive Tokens.Starts : Tokens → List Token → Tokens → Prop
  | nil (ts : Tokens) : Starts ts [] ts
  | cons (t : Token) (offset : Nat) {ts rest : Tokens} {used : List Token}
      (h : Starts ts used rest) :
      Starts (.token t offset ts) (t :: used) rest

def Tokens.IsFault : Tokens → Prop
  | .fault _ => True
  | _ => False

/-- An expression of some power ends in front of the stream. -/
def Tokens.Stops (power : Nat) : Tokens → Prop
  | .token t _ _ => ∀ {o level}, t.binary? = some o → o.level? = some level → 2 * level + 1 < power
  | _ => True

namespace Tokens

variable {ts us vs : Tokens} {used more : List Token} {t : Token} {offset : Nat}

theorem Starts.trans (h : ts.Starts used us) (h' : us.Starts more vs) :
    ts.Starts (used ++ more) vs := by
  induction h with
  | nil ts => exact h'
  | cons t offset h ih => exact .cons t offset (ih h')

theorem Starts.split (h : ts.Starts (used ++ more) vs) :
    ∃ us, ts.Starts used us ∧ us.Starts more vs := by
  induction used generalizing ts with
  | nil => exact ⟨ts, .nil ts, h⟩
  | cons t used ih =>
    cases h with
    | cons _ offset h =>
      obtain ⟨us, hused, hmore⟩ := ih h
      exact ⟨us, .cons t offset hused, hmore⟩

theorem Starts.size_eq (h : ts.Starts used us) : ts.size = used.length + us.size := by
  induction h with
  | nil ts => simp
  | cons t offset h ih =>
    simp only [size, List.length_cons, ih]
    omega

theorem Starts.not_isFault (h : ts.Starts used us) (hus : ¬ us.IsFault) : ¬ ts.IsFault := by
  cases h with
  | nil ts => exact hus
  | cons t offset h => exact fun h => h

theorem Stops.mono {low high : Nat} (h : ts.Stops low) (hle : low ≤ high) : ts.Stops high := by
  cases ts with
  | finish offset => trivial
  | fault e => trivial
  | token t offset rest => exact fun ho hlevel => Nat.lt_of_lt_of_le (h ho hlevel) hle

/-- No binary operator goes on behind a prefix operator's power. -/
theorem stops_of_prefixPower_le {power : Nat} (h : prefixPower ≤ power) : ts.Stops power := by
  cases ts with
  | finish offset => trivial
  | fault e => trivial
  | token t offset rest =>
    intro o level ho hlevel
    have hlt := level?_lt hlevel
    unfold prefixLevel at hlt
    unfold prefixPower at h
    omega

theorem advance_token (h : ¬ ts.IsFault) : (Tokens.token t offset ts).advance = .ok ts := by
  cases ts with
  | fault e => exact absurd trivial h
  | finish offset => rfl
  | token t offset rest => rfl

theorem advance_token_eq_ok (h : (Tokens.token t offset ts).advance = .ok us) : us = ts := by
  cases ts <;> cases h <;> rfl

end Tokens

theorem Except.bind_eq_ok {ε α β : Type} {x : Except ε α} {f : α → Except ε β} {b : β}
    (h : x >>= f = .ok b) : ∃ a, x = .ok a ∧ f a = .ok b := by
  cases x with
  | error e => cases h
  | ok a => exact ⟨a, rfl, h⟩

theorem Except.bind_of_eq_ok {ε α β : Type} {x : Except ε α} {f : α → Except ε β} {a : α}
    (h : x = .ok a) : x >>= f = f a :=
  h ▸ rfl

/-- A result stands for the tokens that it took from the stream. -/
def Reads (level : Nat) (ts : Tokens) (t : Tree) (rest : Tokens) : Prop :=
  ∃ used, ts.Starts used rest ∧ ((∀ tok ∈ used, tok.Real) → Derives level used t)

def ExpressionSound (n : Nat) : Prop :=
  ∀ {power ts t rest}, power ≤ prefixPower → parseExpression n power ts = .ok (t, rest) →
    Reads (power / 2) ts t rest ∧ rest.Stops power

def OperandSound (n : Nat) : Prop :=
  ∀ {ts t rest}, parseOperand n ts = .ok (t, rest) → Reads prefixLevel ts t rest

/-- The tokens `pre` are those of the tree that the operators go on from. -/
def OperatorsSound (n : Nat) : Prop :=
  ∀ {power level start pre lhs ts t rest}, power / 2 ≤ level → ts.Stops (2 * level + 2) →
    start.Starts pre ts → ((∀ tok ∈ pre, tok.Real) → Derives level pre lhs) →
    parseOperators n power lhs ts = .ok (t, rest) → Reads (power / 2) start t rest ∧
    rest.Stops power

theorem expressionSound_succ {n : Nat} (hoperand : OperandSound n) (hoperators : OperatorsSound n) :
    ExpressionSound (n + 1) := by
  intro power ts t rest hpower h
  unfold parseExpression at h
  obtain ⟨⟨lhs, us⟩, hlhs, h⟩ := Except.bind_eq_ok h
  obtain ⟨pre, hpre, hderives⟩ := hoperand hlhs
  have hlevel : power / 2 ≤ prefixLevel := by
    unfold prefixPower at hpower
    unfold prefixLevel
    omega
  exact hoperators hlevel (Tokens.stops_of_prefixPower_le (by decide)) hpre hderives h

theorem operandSound_succ {n : Nat} (hexpression : ExpressionSound n) : OperandSound (n + 1) := by
  intro ts t rest h
  unfold parseOperand at h
  obtain ⟨us, hus, h⟩ := Except.bind_eq_ok h
  cases ts with
  | finish offset => cases h
  | fault e => cases h
  | token tok offset vs =>
    obtain rfl := Tokens.advance_token_eq_ok hus
    have prefixed : ∀ {o}, tok.prefix? = some o →
        (parseExpression n prefixPower us >>= fun p => .ok (.unary o p.1, p.2)) =
          .ok (t, rest) → Reads prefixLevel (.token tok offset us) t rest := by
      intro o ho h
      obtain ⟨⟨operand, ws⟩, hoperand, h⟩ := Except.bind_eq_ok h
      cases h
      obtain ⟨⟨used, hused, hderives⟩, -⟩ := hexpression (Nat.le_refl _) hoperand
      refine ⟨tok :: used, .cons tok offset hused, fun hreal => ?_⟩
      have htok := hreal tok (List.mem_cons_self ..)
      exact .prefixed (htok.mem_prefixOperators ho) ho
        (hderives fun u hu => hreal u (List.mem_cons_of_mem _ hu))
    cases tok with
    | literal l =>
      cases h
      exact ⟨[.literal l], .cons _ offset (.nil _), fun _ => (Derives.literal l).of_le (by decide)⟩
    | opening =>
      obtain ⟨⟨inner, ws⟩, hinner, h⟩ := Except.bind_eq_ok h
      obtain ⟨⟨used, hused, hderives⟩, -⟩ := hexpression (Nat.zero_le _) hinner
      cases ws with
      | finish offset => cases h
      | fault e => cases h
      | token u offset' xs =>
        cases u with
        | closing =>
          obtain ⟨ys, hys, h⟩ := Except.bind_eq_ok h
          cases Tokens.advance_token_eq_ok hys
          cases h
          refine ⟨.opening :: (used ++ [.closing]), ?_, fun hreal => ?_⟩
          · exact .cons _ offset (hused.trans (.cons _ offset' (.nil _)))
          · have hused : ∀ u ∈ used, u.Real := fun u hu => hreal u (by simp [hu])
            exact (Derives.parens (hderives hused)).of_le (by decide)
        | literal | plus | minus | binary | prefixed | opening => cases h
    | plus => exact prefixed rfl h
    | minus => exact prefixed rfl h
    | prefixed o => exact prefixed rfl h
    | binary o => cases h
    | closing => cases h

theorem operatorsSound_succ {n : Nat} (hexpression : ExpressionSound n)
    (hoperators : OperatorsSound n) : OperatorsSound (n + 1) := by
  intro power level start pre lhs ts t rest hpower hstops hpre hlhs h
  unfold parseOperators at h
  have done : ts.Stops power → Reads (power / 2) start lhs ts ∧ ts.Stops power :=
    fun hstop => ⟨⟨pre, hpre, fun hreal => (hlhs hreal).of_le hpower⟩, hstop⟩
  cases ts with
  | finish offset => cases h; exact done trivial
  | fault e => cases h; exact done trivial
  | token tok offset us =>
    simp only at h
    split at h
    next hbinary =>
      cases h
      exact done fun ho => absurd (hbinary ▸ ho) (by simp)
    next o ho =>
      split at h
      next hpowers =>
        cases h
        have hnone : o.level? = none := by simpa [BinaryOperator.powers?] using hpowers
        refine done fun ho' hlevel => ?_
        cases ho.symm.trans ho'
        exact absurd (hnone ▸ hlevel) (by simp)
      next left right hpowers =>
        obtain ⟨l, hl, hleft⟩ := Option.map_eq_some_iff.mp hpowers
        cases hleft
        split at h
        next hlt =>
          cases h
          refine done fun ho' hlevel => ?_
          cases ho.symm.trans ho'
          cases hl.symm.trans hlevel
          exact hlt
        next hge =>
          -- the operator's level lies between that of the power and that of the tree before it
          have hle : l ≤ level := by
            have := hstops ho hl
            omega
          have hlow : power / 2 ≤ l := by omega
          have hten : 2 * l + 2 ≤ prefixPower := by
            have := level?_lt hl
            unfold prefixLevel at this
            unfold prefixPower
            omega
          obtain ⟨vs, hvs, h⟩ := Except.bind_eq_ok h
          cases Tokens.advance_token_eq_ok hvs
          obtain ⟨⟨rhs, ws⟩, hrhs, h⟩ := Except.bind_eq_ok h
          obtain ⟨⟨used, hused, hderives⟩, hws⟩ := hexpression hten hrhs
          refine hoperators hlow hws (hpre.trans (.cons tok offset hused)) (fun hreal => ?_) h
          obtain ⟨os, hos, hmem⟩ := level?_eq_some_iff.mp hl
          have hright := hderives fun u hu => hreal u (by simp [hu])
          rw [show (2 * l + 2) / 2 = l + 1 by omega] at hright
          have hleft := (hlhs fun u hu => hreal u (by simp [hu])).of_le hle
          exact .binary hos hmem ho hleft hright

theorem parsers_sound (n : Nat) : ExpressionSound n ∧ OperandSound n ∧ OperatorsSound n := by
  induction n with
  | zero =>
    refine ⟨fun _ h => ?_, fun h => ?_, fun _ _ _ _ h => ?_⟩
    · unfold parseExpression at h; cases h
    · unfold parseOperand at h; cases h
    · unfold parseOperators at h; cases h
  | succ n ih =>
    obtain ⟨hexpression, hoperand, hoperators⟩ := ih
    exact ⟨expressionSound_succ hoperand hoperators, operandSound_succ hexpression,
      operatorsSound_succ hexpression hoperators⟩

/-- The tree of some tokens is an operand, after which the parser goes on with operators. Two steps
for each token are enough. -/
def Resumes (level : Nat) (used : List Token) (t : Tree) : Prop :=
  ∀ power ts rest, power / 2 ≤ level → ts.Starts used rest → ¬ rest.IsFault →
    rest.Stops (2 * level + 2) → ∃ c ≤ used.length, ∀ n, 2 * used.length ≤ n →
      parseExpression n power ts = parseOperators (n - c) power t rest

theorem parseOperators_of_stops {n power : Nat} {t : Tree} {rest : Tokens} (hn : 0 < n)
    (h : rest.Stops power) : parseOperators n power t rest = .ok (t, rest) := by
  obtain ⟨m, rfl⟩ := Nat.exists_eq_succ_of_ne_zero (Nat.ne_of_gt hn)
  unfold parseOperators
  cases rest with
  | finish offset => rfl
  | fault e => rfl
  | token tok offset rest =>
    simp only
    split
    next => rfl
    next o ho =>
      split
      next => rfl
      next left right hpowers =>
        obtain ⟨l, hl, hleft⟩ := Option.map_eq_some_iff.mp hpowers
        cases hleft
        rw [if_pos (h ho hl)]

theorem parseOperators_binary {n power level : Nat} {lhs rhs : Tree} {tok : Token}
    {o : BinaryOperator} {offset : Nat} {us rest : Tokens} (ho : tok.binary? = some o)
    (hlevel : o.level? = some level) (hpower : power / 2 ≤ level) (hus : ¬ us.IsFault)
    (hrhs : parseExpression n (2 * level + 2) us = .ok (rhs, rest)) :
    parseOperators (n + 1) power lhs (.token tok offset us) =
      parseOperators n power (.binary o lhs rhs) rest := by
  have hpowers : o.powers? = some (2 * level + 1, 2 * level + 2) := by
    simp [BinaryOperator.powers?, hlevel]
  have hge : ¬ 2 * level + 1 < power := by omega
  rw [parseOperators]
  simp only [ho, hpowers, hge, if_false, Tokens.advance_token hus]
  exact (Except.bind_of_eq_ok rfl).trans (Except.bind_of_eq_ok hrhs)

theorem parseOperand_prefixed {n : Nat} {t : Tree} {tok : Token} {o : UnaryOperator} {offset : Nat}
    {us rest : Tokens} (ho : tok.prefix? = some o) (hus : ¬ us.IsFault)
    (ht : parseExpression n prefixPower us = .ok (t, rest)) :
    parseOperand (n + 1) (.token tok offset us) = .ok (.unary o t, rest) := by
  cases tok with
  | literal | binary | opening | closing => cases ho
  | plus | minus | prefixed =>
    cases ho
    rw [parseOperand, Tokens.advance_token hus]
    exact (Except.bind_of_eq_ok rfl).trans (Except.bind_of_eq_ok ht)

theorem parseOperand_parens {n offset offset' : Nat} {t : Tree} {us rest : Tokens}
    (hus : ¬ us.IsFault) (hrest : ¬ rest.IsFault)
    (ht : parseExpression n 0 us = .ok (t, .token .closing offset' rest)) :
    parseOperand (n + 1) (.token .opening offset us) = .ok (t, rest) := by
  rw [parseOperand, Tokens.advance_token hus]
  refine (Except.bind_of_eq_ok rfl).trans ((Except.bind_of_eq_ok ht).trans ?_)
  exact Except.bind_of_eq_ok (Tokens.advance_token hrest)

namespace Resumes

variable {level : Nat} {used : List Token} {t : Tree}

/-- An expression that nothing follows is read to its end. -/
theorem whole {n power : Nat} {ts rest : Tokens} (h : Resumes level used t) (hpos : 0 < used.length)
    (hpower : power / 2 ≤ level) (hstarts : ts.Starts used rest) (hrest : ¬ rest.IsFault)
    (hstops : rest.Stops power) (hn : 2 * used.length ≤ n) :
    parseExpression n power ts = .ok (t, rest) := by
  obtain ⟨c, hc, hread⟩ := h power ts rest hpower hstarts hrest (hstops.mono (by omega))
  rw [hread n hn]
  exact parseOperators_of_stops (by omega) hstops

/-- An operand of its own takes one step more than it reads in. -/
theorem of_operand (hpos : 0 < used.length)
    (h : ∀ {n ts rest}, ts.Starts used rest → ¬ rest.IsFault → 2 * used.length ≤ n + 2 →
      parseOperand (n + 1) ts = .ok (t, rest)) : Resumes level used t := by
  intro power ts rest hpower hstarts hrest hstops
  refine ⟨1, hpos, fun n hn => ?_⟩
  obtain ⟨m, rfl⟩ := Nat.exists_eq_add_of_le (show 2 ≤ n by omega)
  rw [show 2 + m = m + 1 + 1 by omega, parseExpression]
  exact Except.bind_of_eq_ok (h hstarts hrest (by omega))

theorem literal (l : Literal) : Resumes level [.literal l] (.literal l) := by
  refine of_operand (by simp) fun hstarts hrest hn => ?_
  cases hstarts with
  | cons _ offset h =>
    cases h
    rw [parseOperand, Tokens.advance_token hrest]
    rfl

theorem parens {inner : Nat} (h : Resumes inner used t) (hpos : 0 < used.length) :
    Resumes level (.opening :: (used ++ [.closing])) t := by
  refine of_operand (by simp) fun {n ts rest} hstarts hrest hn => ?_
  cases hstarts with
  | cons _ offset hstarts =>
    obtain ⟨us, hused, hclosing⟩ := hstarts.split
    cases hclosing with
    | @cons _ offset' _ _ _ hnil =>
      cases hnil
      simp only [List.length_cons, List.length_append, List.length_nil] at hn
      have hstops : Tokens.Stops 0 (.token .closing offset' rest) := fun ho => by cases ho
      have hread : parseExpression n 0 _ = .ok (t, .token .closing offset' rest) :=
        h.whole hpos (by omega) hused (fun h => h) hstops (by omega)
      exact parseOperand_parens (hused.not_isFault fun h => h) hrest hread

theorem prefixed {tok : Token} {o : UnaryOperator} (ho : tok.prefix? = some o)
    (h : Resumes prefixLevel used t) (hpos : 0 < used.length) :
    Resumes level (tok :: used) (.unary o t) := by
  refine of_operand (by simp) fun {n ts rest} hstarts hrest hn => ?_
  cases hstarts with
  | cons _ offset hused =>
    have hstops : rest.Stops prefixPower := Tokens.stops_of_prefixPower_le (Nat.le_refl _)
    simp only [List.length_cons] at hn
    exact parseOperand_prefixed ho (hused.not_isFault hrest)
      (h.whole hpos (by decide) hused hrest hstops (by omega))

theorem binary {tok : Token} {o : BinaryOperator} {more : List Token} {u : Tree}
    (ho : tok.binary? = some o) (hlevel : o.level? = some level) (ht : Resumes level used t)
    (hu : Resumes (level + 1) more u) (hpos : 0 < more.length) :
    Resumes level (used ++ tok :: more) (.binary o t u) := by
  intro power ts rest hpower hstarts hrest hstops
  obtain ⟨us, hused, htok⟩ := hstarts.split
  cases htok with
  | @cons _ offset vs _ _ hmore =>
    have hvs := hmore.not_isFault hrest
    have hbetween : Tokens.Stops (2 * level + 2) (.token tok offset vs) := by
      intro o' level' ho' hlevel'
      cases ho.symm.trans ho'
      cases hlevel.symm.trans hlevel'
      omega
    obtain ⟨c, hc, hread⟩ := ht power ts _ hpower hused (fun h => h) hbetween
    simp only [List.length_append, List.length_cons]
    refine ⟨c + 1, by omega, fun n hn => ?_⟩
    have hrhs : parseExpression (n - c - 1) (2 * level + 2) vs = .ok (u, rest) :=
      hu.whole hpos (by omega) hmore hrest hstops (by omega)
    rw [hread n (by omega), show n - c = n - c - 1 + 1 by omega,
      parseOperators_binary ho hlevel hpower hvs hrhs, Nat.sub_sub]

theorem tighter (h : Resumes (level + 1) used t) : Resumes level used t :=
  fun power ts rest hpower hstarts hrest hstops =>
    h power ts rest (by omega) hstarts hrest (hstops.mono (by omega))

end Resumes

theorem Derives.resumes {level : Nat} {ts : List Token} {t : Tree} (h : Derives level ts t) :
    Resumes level ts t := by
  induction h with
  | literal l => exact .literal l
  | parens h ih => exact .parens ih h.length_pos
  | prefixed ho htok h ih => exact .prefixed htok ih h.length_pos
  | binary hos ho htok ht hu iht ihu =>
    exact .binary htok (level?_eq_some_iff.mpr ⟨_, hos, ho⟩) iht ihu hu.length_pos
  | tighter h ih => exact .tighter ih

def Tokens.ofList (ts : List Token) : Tokens :=
  ts.foldr (fun t rest => .token t 0 rest) (.finish 0)

theorem Tokens.ofList_starts (ts : List Token) : (ofList ts).Starts ts (.finish 0) := by
  induction ts with
  | nil => exact .nil _
  | cons t ts ih => exact .cons t 0 ih

/-- The grammar is unambiguous. -/
theorem Derives.unique {level : Nat} {ts : List Token} {t u : Tree} (ht : Derives level ts t)
    (hu : Derives level ts u) : t = u := by
  have read : ∀ {t}, Derives level ts t →
      parseExpression (2 * ts.length) 0 (Tokens.ofList ts) = .ok (t, .finish 0) := fun h =>
    h.resumes.whole h.length_pos (by omega) (Tokens.ofList_starts ts)
      (fun h => h) trivial (Nat.le_refl _)
  exact congrArg Prod.fst (Except.ok.inj ((read ht).symm.trans (read hu)))

theorem Tree.reads_of_parse {text : String} {t : Tree} (h : Tree.parse text = .ok t) :
    ∃ offset, Reads 0 (tokens text) t (.finish offset) := by
  unfold Tree.parse at h
  simp only at h
  split at h
  next => cases h
  next =>
    obtain ⟨⟨tree, rest⟩, hread, h⟩ := Except.bind_eq_ok h
    cases rest with
    | fault e => cases h
    | token tok offset rest => cases h
    | finish offset =>
      cases h
      exact ⟨offset, ((parsers_sound _).1 (Nat.zero_le _) hread).1⟩

theorem Tree.parse_of_derives {text : String} {used : List Token} {offset : Nat} {t : Tree}
    (hstarts : (tokens text).Starts used (.finish offset)) (h : Derives 0 used t) :
    Tree.parse text = .ok t := by
  have hsize := hstarts.size_eq
  simp only [Tokens.size, Nat.add_zero] at hsize
  have hread : parseExpression (3 * (tokens text).size + 3) 0 (tokens text) =
      .ok (t, .finish offset) :=
    h.resumes.whole h.length_pos (by omega) hstarts (fun h => h) trivial (by omega)
  have hfault : ¬ (tokens text).IsFault := hstarts.not_isFault fun h => h
  unfold Tree.parse
  cases htokens : tokens text with
  | fault e => rw [htokens] at hfault; exact absurd trivial hfault
  | finish offset => exact Except.bind_of_eq_ok (htokens ▸ hread)
  | token tok offset rest => exact Except.bind_of_eq_ok (htokens ▸ hread)

end InterfaceCatalog
