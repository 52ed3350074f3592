import InterfaceCatalog.Proofs.Expression.NumeralParts
import InterfaceCatalog.Proofs.Query.Types

namespace InterfaceCatalog

/-- The characters that stand between the names in the text of a type. -/
def isTypeMark (c : Char) : Bool :=
  ['(', ')', '<', '>', ','].contains c

/-- A text in which nothing is taken for what stands between names. -/
def IsPlainName (name : String) : Prop :=
  ∀ c ∈ name.toList, ¬ isTypeMark c

/-- What may follow the text of a type in another one. -/
def ClosesType (cs : List Char) : Prop :=
  ∀ c ∈ cs.head?, c = ')' ∨ c = ',' ∨ c = '>'

theorem ClosesType.mark {cs : List Char} (h : ClosesType cs) :
    ∀ c ∈ cs.head?, isTypeMark c ∧ c ≠ '(' := by
  intro c hc
  obtain rfl | rfl | rfl := h c hc <;> decide

theorem ClosesType.ne_angle {cs : List Char} (h : ClosesType cs) : ∀ c ∈ cs.head?, c ≠ '<' := by
  intro c hc
  obtain rfl | rfl | rfl := h c hc <;> decide

theorem ClosesType.behind {cs : List Char} (h : ClosesType cs) (n : Nat) :
    ClosesType (List.replicate n ')' ++ cs) := by
  cases n with
  | zero => exact h
  | succ n => exact forall_head_cons (.inl rfl)

theorem append_inj_of_plain {name name' : String} (h : IsPlainName name) (h' : IsPlainName name')
    {cs cs' : List Char} (hcs : ∀ c ∈ cs.head?, isTypeMark c) (hcs' : ∀ c ∈ cs'.head?, isTypeMark c)
    (heq : name.toList ++ cs = name'.toList ++ cs') : name = name' ∧ cs = cs' := by
  have plain : ∀ {name : String}, IsPlainName name → ∀ c ∈ name.toList, !isTypeMark c := by
    intro name h c hc
    simpa using h c hc
  have stops : ∀ {cs : List Char}, (∀ c ∈ cs.head?, isTypeMark c) →
      ∀ c ∈ cs.head?, ¬ !isTypeMark c := by
    intro cs h c hc
    simp [h c hc]
  have hname : name.toList = name'.toList := by
    rw [← takeWhile_append_stop (plain h) (stops hcs), heq,
      takeWhile_append_stop (plain h') (stops hcs')]
  exact ⟨String.toList_inj.mp hname, List.append_cancel_left (hname ▸ heq)⟩

/-- A text that starts with one character is not one that does not. -/
theorem cons_ne_of_head {c : Char} {l cs : List Char} (h : ∀ d ∈ cs.head?, d ≠ c) :
    c :: l ≠ cs := by
  rintro rfl
  exact h c rfl rfl

/-- Wrappers with their brackets, as they stand in front of a name. -/
def opened (words : List String) : List Char :=
  words.flatMap fun w => w.toList ++ ['(']

theorem opened_cons (w : String) (words : List String) (cs : List Char) :
    opened (w :: words) ++ cs = w.toList ++ '(' :: (opened words ++ cs) := by
  simp [opened]

theorem flatMap_opened (words : List String) :
    (words.map (· ++ "(")).flatMap String.toList = opened words := by
  simp [opened, List.flatMap_map]

theorem flatMap_closed (words : List String) :
    (words.map fun _ => ")").flatMap String.toList = List.replicate words.length ')' := by
  induction words with
  | nil => rfl
  | cons w ws ih => rw [List.map_cons, List.flatMap_cons, ih]; rfl

/-- Wrappers are told from the name behind them by their brackets. -/
theorem opened_append_inj {words words' : List String} (hw : ∀ w ∈ words, IsPlainName w)
    (hw' : ∀ w ∈ words', IsPlainName w) {name name' : String} (h : IsPlainName name)
    (h' : IsPlainName name') {cs cs' : List Char} (hcs : ∀ c ∈ cs.head?, isTypeMark c ∧ c ≠ '(')
    (hcs' : ∀ c ∈ cs'.head?, isTypeMark c ∧ c ≠ '(')
    (heq : opened words ++ (name.toList ++ cs) = opened words' ++ (name'.toList ++ cs')) :
    words = words' ∧ name = name' ∧ cs = cs' := by
  have hmark : ∀ c ∈ cs.head?, isTypeMark c := fun c hc => (hcs c hc).1
  have hmark' : ∀ c ∈ cs'.head?, isTypeMark c := fun c hc => (hcs' c hc).1
  have bracket : ∀ l, ∀ c ∈ ('(' :: l : List Char).head?, isTypeMark c :=
    fun l => forall_head_cons (by decide)
  induction words generalizing words' with
  | nil =>
    cases words' with
    | nil =>
      obtain ⟨hname, hrest⟩ := append_inj_of_plain h h' hmark hmark' heq
      exact ⟨rfl, hname, hrest⟩
    | cons w' ws' =>
      rw [opened_cons] at heq
      obtain ⟨-, hrest⟩ :=
        append_inj_of_plain h (hw' w' (List.mem_cons_self ..)) hmark (bracket _) heq
      exact absurd hrest.symm (cons_ne_of_head fun c hc => (hcs c hc).2)
  | cons w ws ih =>
    rw [opened_cons] at heq
    cases words' with
    | nil =>
      obtain ⟨-, hrest⟩ :=
        append_inj_of_plain (hw w (List.mem_cons_self ..)) h' (bracket _) hmark' heq
      exact absurd hrest (cons_ne_of_head fun c hc => (hcs' c hc).2)
    | cons w' ws' =>
      rw [opened_cons] at heq
      obtain ⟨hw₁, hws⟩ := List.forall_mem_cons.mp hw
      obtain ⟨hw₁', hws'⟩ := List.forall_mem_cons.mp hw'
      obtain ⟨rfl, hrest⟩ := append_inj_of_plain hw₁ hw₁' (bracket _) (bracket _) heq
      obtain ⟨rfl, hname, hrest⟩ := ih hws hws' (List.cons.inj hrest).2
      exact ⟨rfl, hname, hrest⟩

theorem Catalog.wrappers_plain (q : Qualifiers) : ∀ w ∈ Catalog.wrappers q, IsPlainName w := by
  have hwords : ∀ w ∈ ["own", "const", "ptr"], IsPlainName w := by
    have hall : ∀ w ∈ ["own", "const", "ptr"], w.toList.all fun c => !isTypeMark c := by decide
    intro w hw c hc
    simpa using List.all_eq_true.mp (hall w hw) c hc
  have hsubset : Catalog.wrappers q ⊆ ["own", "const", "ptr"] := by
    obtain ⟨owned, isConst, ptr⟩ := q
    cases owned <;> cases isConst <;> cases ptr <;> decide
  exact fun w hw => hwords w (hsubset hw)

theorem Catalog.wrappers_injective {q q' : Qualifiers}
    (h : Catalog.wrappers q = Catalog.wrappers q') : q = q' := by
  obtain ⟨owned, isConst, ptr⟩ := q
  obtain ⟨owned', isConst', ptr'⟩ := q'
  revert h
  cases owned <;> cases isConst <;> cases ptr <;> cases owned' <;> cases isConst'
    <;> cases ptr' <;> decide

/-- Texts between angles, if there are any. -/
def angled : List (List Char) → List Char
  | [] => []
  | texts => '<' :: ([',', ' '].intercalate texts ++ ['>'])

theorem toList_angled (texts : List String) :
    (if texts.isEmpty then "" else "<" ++ ", ".intercalate texts ++ ">").toList =
      angled (texts.map String.toList) := by
  cases texts with
  | nil => rfl
  | cons text texts => simp [angled, String.toList_intercalate]

section List

variable {α β : Type} {f : α → List Char} {g : β → List Char} {R : α → β → Prop}

/-- Elements with commas between them, up to a bracket, are told apart if each of them is
from what follows it. -/
theorem forall₂_of_intercalate {as : List α} {bs : List β}
    (hR : ∀ a ∈ as, ∀ b ∈ bs, ∀ cs cs', ClosesType cs → ClosesType cs' → f a ++ cs = g b ++ cs' →
      R a b ∧ cs = cs')
    (has : as ≠ []) (hbs : bs ≠ []) {cs cs' : List Char}
    (heq : [',', ' '].intercalate (as.map f) ++ '>' :: cs =
      [',', ' '].intercalate (bs.map g) ++ '>' :: cs') :
    List.Forall₂ R as bs ∧ cs = cs' := by
  have last : ∀ l, ClosesType ('>' :: l) := fun l => forall_head_cons (by decide)
  have comma : ∀ l, ClosesType (',' :: l) := fun l => forall_head_cons (by decide)
  induction as generalizing bs with
  | nil => exact absurd rfl has
  | cons a as ih =>
    obtain ⟨b, bs, rfl⟩ := List.exists_cons_of_ne_nil hbs
    have hhead := hR a (List.mem_cons_self ..) b (List.mem_cons_self ..)
    cases as with
    | nil =>
      cases bs with
      | nil =>
        obtain ⟨hab, hrest⟩ := hhead _ _ (last cs) (last cs') (by simpa using heq)
        exact ⟨.cons hab .nil, (List.cons.inj hrest).2⟩
      | cons b' bs =>
        have hrest :=
          (hhead _ _ (last cs) (comma _) (by simpa [List.intercalate_cons_cons] using heq)).2
        cases (List.cons.inj hrest).1
    | cons a' as =>
      cases bs with
      | nil =>
        have hrest :=
          (hhead _ _ (comma _) (last cs') (by simpa [List.intercalate_cons_cons] using heq)).2
        cases (List.cons.inj hrest).1
      | cons b' bs =>
        simp only [List.map_cons, List.intercalate_cons_cons, List.append_assoc, List.cons_append,
          List.nil_append] at heq
        obtain ⟨hab, hrest⟩ := hhead _ _ (comma _) (comma _) heq
        have htail := (List.cons.inj (List.cons.inj hrest).2).2
        obtain ⟨habs, hcs⟩ :=
          ih (fun a ha b hb => hR a (List.mem_cons_of_mem _ ha) b (List.mem_cons_of_mem _ hb))
          (List.cons_ne_nil _ _) (List.cons_ne_nil _ _) htail
        exact ⟨.cons hab habs, hcs⟩

end List

mutual

/-- How deep types are nested in a type. -/
def TypeSource.depth : TypeSource → Nat
  | .named _ _ _ params => TypeSource.depthOf params

def TypeSource.depthOf : List TypeSource → Nat
  | [] => 0
  | param :: params => max (param.depth + 1) (TypeSource.depthOf params)

end

theorem TypeSource.exists_depth {τs : List TypeSource} {n : Nat} (h : depthOf τs = n + 1) :
    ∃ τ ∈ τs, τ.depth = n := by
  induction τs with
  | nil => cases h
  | cons τ τs ih =>
    rw [depthOf] at h
    rcases Nat.le_total (τ.depth + 1) (depthOf τs) with hle | hle
    · obtain ⟨τ', hτ', hn⟩ := ih ((Nat.max_eq_right hle).symm.trans h)
      exact ⟨τ', List.mem_cons_of_mem _ hτ', hn⟩
    · exact ⟨τ, List.mem_cons_self .., Nat.succ.inj ((Nat.max_eq_left hle).symm.trans h)⟩

theorem TypeSource.depth_lt_of_mem {τ : TypeSource} {τs : List TypeSource} (h : τ ∈ τs) :
    τ.depth < depthOf τs := by
  induction τs with
  | nil => cases h
  | cons τ' τs ih =>
    rw [depthOf]
    rcases List.mem_cons.mp h with rfl | h
    · exact Nat.le_max_left ..
    · exact Nat.lt_of_lt_of_le (ih h) (Nat.le_max_right ..)

namespace Catalog

variable {c c' : Catalog} {file : String} {source : FileSource}

/-- There are at most so many levels of types in a type, the type itself the first of them. -/
def NestsWithin (c : Catalog) : Nat → TypeRecord → Prop
  | 0, _ => False
  | n + 1, r => ∀ v ∈ c.typeParameters r, c.NestsWithin n v.record

theorem typeTextWithin_eq {n : Nat} {r : TypeRecord} (h : c.NestsWithin n r) {fuel fuel' : Nat}
    (hf : n ≤ fuel) (hf' : n ≤ fuel') : c.typeTextWithin fuel r = c.typeTextWithin fuel' r := by
  induction n generalizing r fuel fuel' with
  | zero => exact h.elim
  | succ n ih =>
    obtain ⟨fuel, rfl⟩ := Nat.exists_eq_add_one_of_ne_zero (Nat.ne_zero_of_lt hf)
    obtain ⟨fuel', rfl⟩ := Nat.exists_eq_add_one_of_ne_zero (Nat.ne_zero_of_lt hf')
    have hparams : (c.typeParameters r).map (fun p => c.typeTextWithin fuel p.record) =
        (c.typeParameters r).map fun p => c.typeTextWithin fuel' p.record :=
      List.map_congr_left fun v hv =>
        ih (h v hv) (Nat.le_of_succ_le_succ hf) (Nat.le_of_succ_le_succ hf')
    rw [typeTextWithin, typeTextWithin, hparams]

/-- The texts of the parameters of a type between angles, if there are any. -/
def listed (c : Catalog) (r : TypeRecord) : List Char :=
  angled ((c.typeParameters r).map fun v => (c.typeText v.record).toList)

/-- The text of a type is made of those of its parameters. -/
theorem typeText_eq {n : Nat} {r : TypeRecord} (h : c.NestsWithin n r)
    (hn : n ≤ c.store.types.slots.size) :
    (c.typeText r).toList = opened (wrappers r.qualifiers) ++ (r.fullName.toList ++
      (c.listed r ++ List.replicate (wrappers r.qualifiers).length ')')) := by
  obtain ⟨n, rfl⟩ := Nat.exists_eq_add_one_of_ne_zero (n := n) (by rintro rfl; exact h)
  have hparams : (c.typeParameters r).map
    (fun p => c.typeTextWithin c.store.types.slots.size p.record) =
      (c.typeParameters r).map fun p => c.typeText p.record :=
    List.map_congr_left fun v hv => typeTextWithin_eq (h v hv) (by omega) (by omega)
  have hlisted := toList_angled ((c.typeParameters r).map fun p => c.typeText p.record)
  rw [List.isEmpty_map, List.map_map] at hlisted
  rw [typeText, typeTextWithin, hparams]
  simp only [String.toList_append, String.toList_join, flatMap_opened, flatMap_closed, hlisted,
    List.append_assoc]
  rfl

/-- Types are the same as far as their texts go: their names, their qualifiers and, in order, their
parameters. Free functions are not written. -/
inductive WrittenAlike (c c' : Catalog) : TypeRecord → TypeRecord → Prop
  | mk {r r' : TypeRecord} (name : r.fullName = r'.fullName)
      (qualifiers : r.qualifiers = r'.qualifiers)
      (parameters : List.Forall₂ (fun v v' => WrittenAlike c c' v.record v'.record)
        (c.typeParameters r) (c'.typeParameters r')) : WrittenAlike c c' r r'

/-- A type is a parameter of another one. -/
def IsParameter (c : Catalog) (r p : TypeRecord) : Prop :=
  ∃ v ∈ c.typeParameters r, v.record = p

/-- All names in a type are plain, at whatever depth they stand. -/
def HasPlainNames (c : Catalog) (r : TypeRecord) : Prop :=
  ∀ p, Relation.ReflTransGen c.IsParameter r p → IsPlainName p.fullName

theorem HasPlainNames.parameter {r : TypeRecord} (h : c.HasPlainNames r) {v : View .types}
    (hv : v ∈ c.typeParameters r) : c.HasPlainNames v.record :=
  fun p hp => h p (.head ⟨v, hv, rfl⟩ hp)

theorem listed_head {r : TypeRecord} {cs : List Char} (h : ClosesType cs) :
    ∀ d ∈ (c.listed r ++ cs).head?, isTypeMark d ∧ d ≠ '(' := by
  unfold listed angled
  split
  next => exact h.mark
  next => exact forall_head_cons (by decide)

theorem listed_append_inj {r r' : TypeRecord}
    (hparams : ∀ v ∈ c.typeParameters r, ∀ v' ∈ c'.typeParameters r', ∀ cs cs', ClosesType cs →
      ClosesType cs' →
      (c.typeText v.record).toList ++ cs = (c'.typeText v'.record).toList ++ cs' →
        WrittenAlike c c' v.record v'.record ∧ cs = cs')
    {cs cs' : List Char} (hcs : ClosesType cs) (hcs' : ClosesType cs')
    (heq : c.listed r ++ cs = c'.listed r' ++ cs') :
    List.Forall₂ (fun v v' => WrittenAlike c c' v.record v'.record) (c.typeParameters r)
      (c'.typeParameters r') ∧ cs = cs' := by
  unfold listed at heq
  cases hvs : c.typeParameters r with
  | nil =>
    cases hvs' : c'.typeParameters r' with
    | nil =>
      rw [hvs, hvs'] at heq
      exact ⟨.nil, heq⟩
    | cons v' vs' =>
      rw [hvs, hvs'] at heq
      exact absurd heq.symm (cons_ne_of_head hcs.ne_angle)
  | cons v vs =>
    cases hvs' : c'.typeParameters r' with
    | nil =>
      rw [hvs, hvs'] at heq
      exact absurd heq (cons_ne_of_head hcs'.ne_angle)
    | cons v' vs' =>
      rw [hvs, hvs'] at heq hparams
      exact forall₂_of_intercalate hparams (List.cons_ne_nil _ _) (List.cons_ne_nil _ _)
        (by simpa [angled] using heq)

/-- The text of a type tells the type, and where the text ends. -/
theorem typeText_append_inj {n n' : Nat} {r r' : TypeRecord} (h : c.NestsWithin n r)
    (hn : n ≤ c.store.types.slots.size) (h' : c'.NestsWithin n' r')
    (hn' : n' ≤ c'.store.types.slots.size) (hplain : c.HasPlainNames r)
    (hplain' : c'.HasPlainNames r') {cs cs' : List Char} (hcs : ClosesType cs)
    (hcs' : ClosesType cs') (heq : (c.typeText r).toList ++ cs = (c'.typeText r').toList ++ cs') :
    WrittenAlike c c' r r' ∧ cs = cs' := by
  induction n generalizing n' r r' cs cs' with
  | zero => exact h.elim
  | succ n ih =>
    obtain ⟨n', rfl⟩ := Nat.exists_eq_add_one_of_ne_zero (n := n') (by rintro rfl; exact h')
    rw [typeText_eq h hn, typeText_eq h' hn'] at heq
    simp only [List.append_assoc] at heq
    obtain ⟨hwrappers, hname, hrest⟩ :=
      opened_append_inj (wrappers_plain _) (wrappers_plain _) (hplain r .refl)
      (hplain' r' .refl) (listed_head (hcs.behind _)) (listed_head (hcs'.behind _)) heq
    rw [hwrappers] at hrest
    have hparams : ∀ v ∈ c.typeParameters r, ∀ v' ∈ c'.typeParameters r', ∀ cs cs', ClosesType cs →
      ClosesType cs' →
        (c.typeText v.record).toList ++ cs = (c'.typeText v'.record).toList ++ cs' →
          WrittenAlike c c' v.record v'.record ∧ cs = cs' :=
      fun v hv v' hv' _ _ => ih (h v hv) (by omega) (h' v' hv') (by omega) (hplain.parameter hv)
        (hplain'.parameter hv')
    obtain ⟨halike, hclosed⟩ := listed_append_inj hparams (hcs.behind _) (hcs'.behind _) hrest
    exact ⟨⟨hname, wrappers_injective hwrappers, halike⟩, List.append_cancel_left hclosed⟩

theorem WrittenAlike.typeText_eq {n n' : Nat} {r r' : TypeRecord} (ha : WrittenAlike c c' r r')
    (h : c.NestsWithin n r) (hn : n ≤ c.store.types.slots.size) (h' : c'.NestsWithin n' r')
    (hn' : n' ≤ c'.store.types.slots.size) : c.typeText r = c'.typeText r' := by
  induction n generalizing n' r r' with
  | zero => exact h.elim
  | succ n ih =>
    obtain ⟨n', rfl⟩ := Nat.exists_eq_add_one_of_ne_zero (n := n') (by rintro rfl; exact h')
    obtain ⟨hname, hqualifiers, hparams⟩ := ha
    have htexts : List.Forall₂
      (fun v v' => (c.typeText v.record).toList = (c'.typeText v'.record).toList)
        (c.typeParameters r) (c'.typeParameters r') :=
      forall₂_imp_mem hparams fun v hv v' hv' ha =>
        congrArg String.toList (ih ha (h v hv) (by omega) (h' v' hv') (by omega))
    have hlisted : c.listed r = c'.listed r' := by
      have hsame := List.forall₂_map_left_iff.mpr (List.forall₂_map_right_iff.mpr htexts)
      rw [List.forall₂_eq_eq_eq] at hsame
      exact congrArg angled hsame
    rw [← String.toList_inj, Catalog.typeText_eq h hn, Catalog.typeText_eq h' hn', hname,
      hqualifiers, hlisted]

theorem view?_of_mem_typeChain {fuel : Nat} {first : Option (Id .types)} {v : View .types}
    (h : v ∈ c.typeChain fuel first) : c.view? v.id = some v := by
  induction fuel generalizing first with
  | zero => cases h
  | succ fuel ih =>
    unfold typeChain at h
    split at h
    next => cases h
    next w hw =>
      rcases List.mem_cons.mp h with rfl | h
      · obtain ⟨id, -, hview⟩ := Option.bind_eq_some_iff.mp hw
        obtain ⟨r, hr, rfl⟩ := Option.map_eq_some_iff.mp hview
        exact hview
      · exact ih h

/-- The parameters of stored types are stored, so that it is enough to look at these. -/
theorem hasPlainNames_of_entries (h : ∀ e ∈ c.store.types.entries, IsPlainName e.2.fullName)
    {id : Id .types} {r : TypeRecord} (hr : c.get? id = some r) : c.HasPlainNames r := by
  intro p hp
  have hstored : ∃ id : Id .types, c.get? id = some p := by
    induction hp with
    | refl => exact ⟨id, hr⟩
    | tail _ hparameter ih =>
      obtain ⟨v, hv, rfl⟩ := hparameter
      exact ⟨v.id, get?_of_view? (view?_of_mem_typeChain hv)⟩
  obtain ⟨id, hp⟩ := hstored
  exact h _ (mem_entries_of_get? hp)

section

variable {file : String} {source : FileSource}

/-- Each parameter is read as one that is written, and each one that is written is read. -/
theorem ReadsTypes.forall₂ {τs : List TypeSource} {vs : List (View .types)}
    (h : c.ReadsTypes file source τs vs) :
    List.Forall₂ (fun τ v => τ ∈ τs ∧ v ∈ vs ∧ c.ReadsType file source τ v) τs vs := by
  have hreads : List.Forall₂ (c.ReadsType file source) τs vs := by
    induction τs generalizing vs with
    | nil =>
      cases vs with
      | nil => exact .nil
      | cons v vs => exact h.elim
    | cons τ τs ih =>
      cases vs with
      | nil => exact h.elim
      | cons v vs => exact .cons h.1 (ih h.2)
  exact forall₂_imp_mem hreads fun τ hτ v hv hr => ⟨hτ, hv, hr⟩

theorem ReadsType.nestsWithin {τ : TypeSource} {v : View .types}
    (h : c.ReadsType file source τ v) {n : Nat} (hn : τ.depth < n) : c.NestsWithin n v.record := by
  induction n generalizing τ v with
  | zero => exact absurd hn (Nat.not_lt_zero _)
  | succ n ih =>
    obtain ⟨name, qualifiers, freeFunction, params⟩ := τ
    obtain ⟨-, -, -, -, hparams⟩ := h
    intro p hp
    obtain ⟨τ, hτ, -, hreads⟩ := exists_of_forall₂ (ReadsTypes.forall₂ hparams).flip p hp
    exact ih hreads (Nat.lt_of_lt_of_le (TypeSource.depth_lt_of_mem hτ) (Nat.le_of_lt_succ hn))

/-- No type is deeper than there are types: each type below it is of a depth of its own. -/
theorem ReadsType.depth_lt_slots {τ : TypeSource} {v : View .types}
    (h : c.ReadsType file source τ v) (hv : c.view? v.id = some v) :
    τ.depth < c.store.types.slots.size := by
  refine lt_slots_of_descent (c := c) (t := .types) (S := fun n id => ∃ τ v,
    TypeSource.depth τ = n ∧
    c.view? id = some v ∧ c.ReadsType file source τ v) ?_ ?_ ?_ ⟨τ, v, rfl, hv, h⟩
  · rintro n id ⟨τ, v, -, hv, -⟩
    exact live_of_get? (get?_of_view? hv)
  · rintro m n id ⟨τ, v, rfl, hv, hτ⟩ ⟨τ', v', rfl, hv', hτ'⟩
    obtain rfl := Option.some.inj (hv.symm.trans hv')
    rw [hτ.eq hτ']
  · rintro n id ⟨⟨name, qualifiers, freeFunction, params⟩, v, hn, -, -, -, -, -, hparams⟩
    obtain ⟨τ, hτ, hdepth⟩ := TypeSource.exists_depth hn
    obtain ⟨p, -, hp, hreads⟩ := exists_of_forall₂ (ReadsTypes.forall₂ hparams) τ hτ
    exact ⟨p.id, τ, p, hdepth, view?_of_mem_typeChain hp, hreads⟩

end

end Catalog

namespace Database

variable {db db' : Database}

theorem Reachable.nestsWithin (h : db.Reachable) {id : Id .types} {r : TypeRecord}
    (hr : db.catalog.get? id = some r) :
    db.catalog.NestsWithin db.catalog.store.types.slots.size r := by
  obtain ⟨hown, hknows⟩ := h.meantLeads.moves.types
  obtain ⟨o, ho, hid⟩ := (h.settled.live_iff id).mp (Catalog.live_of_get? hr)
  obtain ⟨b, hb, rfl⟩ := List.mem_map.mp ho
  obtain ⟨params, -, hparams⟩ := (hown b.owner ho id r hid hr).parameters
  have hfound : db.catalog.own b.owner.journal .types id = some r :=
    Catalog.own_eq_some_iff.mpr ⟨hid, hr⟩
  have hstored : (TypeSource.named r.fullName r.qualifiers r.freeFunction params).StoredBefore
      (db.catalog.own b.owner.journal) r.next id := ⟨r, hfound, rfl, rfl, rfl, rfl, hparams⟩
  have hreads :=
    Catalog.readsType_of_storedBefore (v := ⟨id, r⟩) (hown b.owner ho) (hknows b hb) hfound hstored
  exact hreads.nestsWithin (hreads.depth_lt_slots (view?_of_get? hr))

/-- Two stored types are written alike if their texts are the same, where all names
in them are plain. -/
theorem Reachable.typeText_eq_iff (h : db.Reachable) (h' : db'.Reachable) {id id' : Id .types}
    {r r' : TypeRecord} (hr : db.catalog.get? id = some r) (hr' : db'.catalog.get? id' = some r')
    (hplain : db.catalog.HasPlainNames r) (hplain' : db'.catalog.HasPlainNames r') :
    db.catalog.typeText r = db'.catalog.typeText r' ↔
      Catalog.WrittenAlike db.catalog db'.catalog r r' := by
  have hnests := h.nestsWithin hr
  have hnests' := h'.nestsWithin hr'
  constructor
  · intro htext
    have heq : (db.catalog.typeText r).toList ++ [] = (db'.catalog.typeText r').toList ++ [] := by
      rw [htext]
    exact (Catalog.typeText_append_inj hnests (Nat.le_refl _) hnests' (Nat.le_refl _) hplain hplain'
      (by simp [ClosesType])
      (by simp [ClosesType]) heq).1
  · exact fun ha => ha.typeText_eq hnests (Nat.le_refl _) hnests' (Nat.le_refl _)

/-- Two parameters of a method whose types differ in their free functions only. -/
def freeingSource : FileSource :=
  let listOf (freeFunction : String) : TypeSource :=
    .named "list" ⟨true, false, false⟩ (some freeFunction) [.named "A" ⟨false, true, false⟩ none []]
  { declaredClass := some {
      name := "A"
      methods := [{ name := "m", parameters := [
        { name := "x", type := listOf "drop" }, { name := "y", type := listOf "release" }] }] } }

def freeingParsed : Database :=
  ((readingDatabase freeingSource).parse cyclicDisk "a.eo").2

theorem typeText_eq_iff_freeing : ∃ (id id' : Id .types) (r r' : TypeRecord),
    freeingParsed.catalog.get? id = some r ∧ freeingParsed.catalog.get? id' = some r' ∧
      freeingParsed.catalog.typeText r = "own(list<const(A)>)" ∧ r.freeFunction ≠ r'.freeFunction ∧
        Catalog.WrittenAlike freeingParsed.catalog freeingParsed.catalog r r' := by
  have hreachable : freeingParsed.Reachable := .parse _ _ (readingDatabase_reachable _)
  have hplain : ∀ e ∈ freeingParsed.catalog.store.types.entries, IsPlainName e.2.fullName := by
    have hall : freeingParsed.catalog.store.types.entries.all fun e =>
        e.2.fullName.toList.all fun c => !isTypeMark c := by decide +kernel
    intro e he c hc
    simpa using List.all_eq_true.mp (List.all_eq_true.mp hall e he) c hc
  have hdropped : (freeingParsed.catalog.get? (t := .types) ⟨⟨1, 0⟩⟩).map (fun r =>
      (freeingParsed.catalog.typeText r, r.freeFunction)) =
      some ("own(list<const(A)>)", some "drop") := by
    decide +kernel
  have hreleased : (freeingParsed.catalog.get? (t := .types) ⟨⟨3, 0⟩⟩).map (fun r =>
      (freeingParsed.catalog.typeText r, r.freeFunction)) =
      some ("own(list<const(A)>)", some "release") := by
    decide +kernel
  obtain ⟨r, hr, htold⟩ := Option.map_eq_some_iff.mp hdropped
  obtain ⟨r', hr', htold'⟩ := Option.map_eq_some_iff.mp hreleased
  obtain ⟨htext, hfree⟩ := Prod.mk.inj htold
  obtain ⟨htext', hfree'⟩ := Prod.mk.inj htold'
  have halike :=
    (hreachable.typeText_eq_iff hreachable hr hr' (Catalog.hasPlainNames_of_entries hplain hr)
    (Catalog.hasPlainNames_of_entries hplain hr')).mp (htext.trans htext'.symm)
  exact ⟨_, _, r, r', hr, hr', htext, by rw [hfree, hfree']; decide, halike⟩

end Database

end InterfaceCatalog
