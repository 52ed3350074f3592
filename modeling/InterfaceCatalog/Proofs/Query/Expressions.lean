import InterfaceCatalog.Proofs.Query.Descent
import InterfaceCatalog.Proofs.Query.EnumValues
import InterfaceCatalog.Proofs.Query.Inheritance
import InterfaceCatalog.Proofs.Query.Mentions
import InterfaceCatalog.Query.Expression

namespace InterfaceCatalog

namespace Tree

/-- The length of the longest way down to a leaf. -/
def height : Tree → Nat
  | literal _ => 0
  | unary _ t => t.height + 1
  | binary _ t u => max t.height u.height + 1

end Tree

namespace Catalog

variable {c : Catalog}

theorem treeWithin?_of_storedAt {t : Tree} {id : Id .expressions} (h : t.StoredAt c.records id)
    {fuel : Nat} (hf : t.height < fuel) : c.treeWithin? fuel id = some t := by
  induction t generalizing id fuel with
  | literal l =>
    obtain ⟨fuel, rfl⟩ := Nat.exists_eq_add_one_of_ne_zero (Nat.ne_zero_of_lt hf)
    have hget : c.get? id = some (.literal l) := h
    simp only [treeWithin?, hget]
  | unary o t ih =>
    obtain ⟨fuel, rfl⟩ := Nat.exists_eq_add_one_of_ne_zero (Nat.ne_zero_of_lt hf)
    obtain ⟨operand, hget, ht⟩ := h
    replace hget : c.get? id = some (.unary o operand) := hget
    simp only [treeWithin?, hget, ih ht (Nat.lt_of_succ_lt_succ hf), Option.map_some]
  | binary o t u iht ihu =>
    obtain ⟨fuel, rfl⟩ := Nat.exists_eq_add_one_of_ne_zero (Nat.ne_zero_of_lt hf)
    obtain ⟨lhs, rhs, hget, ht, hu⟩ := h
    replace hget : c.get? id = some (.binary o lhs rhs) := hget
    have hheight := Nat.max_lt.mp (Nat.lt_of_succ_lt_succ hf)
    simp only [treeWithin?, hget, iht ht hheight.1, ihu hu hheight.2]

/-- A handle leads to one tree at most. -/
theorem storedAt_unique {t u : Tree} {id : Id .expressions} (ht : t.StoredAt c.records id)
    (hu : u.StoredAt c.records id) : t = u := by
  have htree := treeWithin?_of_storedAt ht (Nat.lt_succ_of_le (Nat.le_max_left t.height u.height))
  rw [treeWithin?_of_storedAt hu (Nat.lt_succ_of_le (Nat.le_max_right t.height u.height))] at htree
  exact (Option.some.inj htree).symm

theorem get?_of_storedAt {t : Tree} {id : Id .expressions} (h : t.StoredAt c.records id) :
    ∃ r : ExpressionRecord, c.get? id = some r ∧ r.kind = t.kind := by
  cases t with
  | literal l => exact ⟨_, h, rfl⟩
  | unary o t =>
    obtain ⟨operand, hget, -⟩ := h
    exact ⟨_, hget, rfl⟩
  | binary o t u =>
    obtain ⟨lhs, rhs, hget, -⟩ := h
    exact ⟨_, hget, rfl⟩

/-- Some operand of a tree is one lower than the tree. -/
theorem exists_lower {t : Tree} {id : Id .expressions} (h : t.StoredAt c.records id) {n : Nat}
    (hn : t.height = n + 1) :
    ∃ (u : Tree) (next : Id .expressions), u.StoredAt c.records next ∧ u.height = n := by
  cases t with
  | literal l => cases hn
  | unary o t =>
    obtain ⟨operand, -, ht⟩ := h
    exact ⟨t, operand, ht, Nat.succ.inj hn⟩
  | binary o t u =>
    obtain ⟨lhs, rhs, -, ht, hu⟩ := h
    have hmax : max t.height u.height = n := Nat.succ.inj hn
    rcases Nat.le_total t.height u.height with hle | hle
    · exact ⟨u, rhs, hu, (Nat.max_eq_right hle).symm.trans hmax⟩
    · exact ⟨t, lhs, ht, (Nat.max_eq_left hle).symm.trans hmax⟩

theorem height_lt_slots {t : Tree} {id : Id .expressions} (h : t.StoredAt c.records id) :
    t.height < c.store.expressions.slots.size := by
  refine lt_slots_of_descent (c := c) (t := .expressions)
    (S := fun n id => ∃ u : Tree, u.StoredAt c.records id ∧ u.height = n) ?_ ?_ ?_ ⟨t, h, rfl⟩
  · rintro n id ⟨u, hu, -⟩
    obtain ⟨r, hr, -⟩ := get?_of_storedAt hu
    exact live_of_get? hr
  · rintro m n id ⟨u, hu, rfl⟩ ⟨v, hv, rfl⟩
    rw [storedAt_unique hu hv]
  · rintro n id ⟨u, hu, hn⟩
    obtain ⟨v, next, hv, hn⟩ := exists_lower hu hn
    exact ⟨next, v, hv, hn⟩

theorem tree?_of_storedAt {t : Tree} {id : Id .expressions} (h : t.StoredAt c.records id) :
    c.tree? id = some t :=
  treeWithin?_of_storedAt h (height_lt_slots h)

/-- What a stored expression says of itself is what its tree says. -/
structure Presents (c : Catalog) (t : Tree) (v : View .expressions) : Prop where
  tree : c.tree? v.id = some t
  text : c.expressionText? v.id = some t.text
  kind : v.record.kind = t.kind

/-- A tree is read from its root on: each node says of itself what its tree says, and leads to those
of its operands, and to no others. -/
def ReadsAs (c : Catalog) : Tree → View .expressions → Prop
  | .literal l, v =>
    c.Presents (.literal l) v ∧ v.record.literal? = some l ∧ v.record.unaryOperator = .invalid ∧
      v.record.binaryOperator = .invalid ∧ c.unaryOperand? v.record = none ∧
      c.binaryLhs? v.record = none ∧ c.binaryRhs? v.record = none
  | .unary o t, v =>
    c.Presents (.unary o t) v ∧ v.record.literal? = none ∧ v.record.unaryOperator = o ∧
      v.record.binaryOperator = .invalid ∧ (∃ operand, c.unaryOperand? v.record = some operand ∧
        c.ReadsAs t operand) ∧ c.binaryLhs? v.record = none ∧ c.binaryRhs? v.record = none
  | .binary o t u, v =>
    c.Presents (.binary o t u) v ∧ v.record.literal? = none ∧ v.record.unaryOperator = .invalid ∧
      v.record.binaryOperator = o ∧ c.unaryOperand? v.record = none ∧
      (∃ lhs, c.binaryLhs? v.record = some lhs ∧ c.ReadsAs t lhs) ∧
      ∃ rhs, c.binaryRhs? v.record = some rhs ∧ c.ReadsAs u rhs

/-- The text of an expression is read back as what it means. -/
def ReadsBack (c : Catalog) (text : String) (id : Id .expressions) : Prop :=
  ∃ tree v, Tree.parse text = .ok tree ∧ c.view? id = some v ∧ c.ReadsAs tree v

theorem presents_of_storedAt {t : Tree} {id : Id .expressions} (h : t.StoredAt c.records id)
    {r : ExpressionRecord} (hr : c.get? id = some r) : c.Presents t ⟨id, r⟩ := by
  obtain ⟨r', hr', hkind⟩ := get?_of_storedAt h
  cases hr.symm.trans hr'
  refine ⟨tree?_of_storedAt h, ?_, hkind⟩
  rw [expressionText?, tree?_of_storedAt h, Option.map_some]

theorem readsAs_of_storedAt {t : Tree} {id : Id .expressions} (h : t.StoredAt c.records id) :
    ∃ v, c.view? id = some v ∧ c.ReadsAs t v := by
  induction t generalizing id with
  | literal l =>
    have hget : c.get? id = some (.literal l) := h
    exact ⟨_, view?_of_get? hget, presents_of_storedAt h hget, rfl, rfl, rfl, rfl, rfl, rfl⟩
  | unary o t ih =>
    have hstored := h
    obtain ⟨operand, hget, ht⟩ := h
    obtain ⟨v, hv, hreads⟩ := ih ht
    exact ⟨_, view?_of_get? hget, presents_of_storedAt hstored hget, rfl, rfl, rfl,
      ⟨v, hv, hreads⟩, rfl, rfl⟩
  | binary o t u iht ihu =>
    have hstored := h
    obtain ⟨lhs, rhs, hget, ht, hu⟩ := h
    obtain ⟨v, hv, hlhs⟩ := iht ht
    obtain ⟨w, hw, hrhs⟩ := ihu hu
    exact ⟨_, view?_of_get? hget, presents_of_storedAt hstored hget, rfl, rfl, rfl, rfl,
      ⟨v, hv, hlhs⟩, w, hw, hrhs⟩

theorem readsBack_of_storedAt {text : String} {id : Id .expressions}
    (h : ExpressionStoredAt c.records text id) : c.ReadsBack text id := by
  obtain ⟨tree, hparse, hstored⟩ := h
  obtain ⟨v, hv, hreads⟩ := readsAs_of_storedAt hstored
  exact ⟨tree, v, hparse, hv, hreads⟩

theorem exists_get?_of_expressionStoredAt {text : String} {id : Id .expressions}
    (h : ExpressionStoredAt c.records text id) : ∃ r, c.get? id = some r := by
  obtain ⟨tree, -, hstored⟩ := h
  obtain ⟨r, hr, -⟩ := get?_of_storedAt hstored
  exact ⟨r, hr⟩

/-- The value of a field without one: a number, or a sum with the very node of the last value that
is written, which still has the tree of its own text. -/
def SharesAnchor (c : Catalog) (anchor : Option (String × View .expressions)) (distance : Nat)
    (value : View .expressions) : Prop :=
  match anchor with
  | none => c.ReadsAs (.int distance) value
  | some (text, a) =>
    ∃ tree, Tree.parse text = .ok tree ∧ c.ReadsAs tree a ∧ c.binaryLhs? value.record = some a ∧
      c.ReadsAs (.binary .add tree (.int distance)) value

/-- The fields of an enum from one on, where `anchor` is the text and the value of the last field
with one and `distance` the number of fields since. -/
def FieldsRead (c : Catalog) : (anchor : Option (String × View .expressions)) → (distance : Nat) →
    List EnumFieldSource → List (View .enumFields) → Prop
  | _, _, [], [] => True
  | anchor, distance, source :: sources, v :: vs =>
    ∃ value, c.enumFieldValue? v.record true = some value ∧
      match source.value with
      | some text => c.ReadsBack text value.id ∧ c.FieldsRead (some (text, value)) 1 sources vs
      | none => c.SharesAnchor anchor distance value ∧ c.FieldsRead anchor (distance + 1) sources vs
  | _, _, [], _ :: _ | _, _, _ :: _, [] => False

/-- An anchor and the handle that fields count from. -/
def AnchorAt (c : Catalog) (anchor : Option (String × View .expressions))
    (id : Option (Id .expressions)) : Prop :=
  match anchor with
  | none => id = none
  | some (text, a) => id = some a.id ∧ c.view? a.id = some a ∧
      ExpressionStoredAt c.records text a.id

theorem sharesAnchor_of_countedAt {anchor : Option (String × View .expressions)}
    {anchorId : Option (Id .expressions)} (ha : c.AnchorAt anchor anchorId) {distance : Nat}
    {id : Id .expressions} (h : CountedAt c.records anchorId distance id) :
    ∃ value, c.view? id = some value ∧ c.SharesAnchor anchor distance value := by
  obtain ⟨offset, hoffset, hid⟩ := h
  have hint : (Tree.int distance).StoredAt c.records offset := hoffset
  cases anchor with
  | none =>
    cases ha
    cases hid
    exact readsAs_of_storedAt hint
  | some anchor =>
    obtain ⟨text, a⟩ := anchor
    obtain ⟨rfl, hview, tree, hparse, hstored⟩ := ha
    obtain ⟨a', ha', hreads⟩ := readsAs_of_storedAt hstored
    cases hview.symm.trans ha'
    have hsum : (Tree.binary .add tree (.int distance)).StoredAt c.records id :=
      ⟨a.id, offset, hid, hstored, hint⟩
    obtain ⟨value, hvalue, hsum⟩ := readsAs_of_storedAt hsum
    refine ⟨value, hvalue, tree, hparse, hreads, ?_, hsum⟩
    cases (view?_of_get? hid).symm.trans hvalue
    exact hview

theorem fieldsRead_of_countsFrom {sources : List EnumFieldSource} {vs : List (View .enumFields)}
    (hwritten : List.Forall₂ (fun source v => source.WrittenIn c.records v.record) sources vs)
    {anchor : Option (String × View .expressions)} {anchorId : Option (Id .expressions)}
    (ha : c.AnchorAt anchor anchorId) {distance : Nat}
    (hcounts : CountsFrom c.records anchorId distance (vs.map View.record)) :
    c.FieldsRead anchor distance sources vs := by
  induction hwritten generalizing anchor anchorId distance with
  | nil => trivial
  | @cons source v sources vs hv _ ih =>
    rw [List.map_cons, CountsFrom, hv.isExplicit] at hcounts
    unfold FieldsRead
    cases hsource : source.value with
    | some text =>
      rw [hsource, Option.isSome_some, if_pos rfl] at hcounts
      have hstored := hv.value text hsource
      obtain ⟨r, hget⟩ := exists_get?_of_expressionStoredAt hstored
      have hview := view?_of_get? hget
      have hanchor : c.AnchorAt (some (text, ⟨v.record.value, r⟩)) (some v.record.value) :=
        ⟨rfl, hview, hstored⟩
      exact ⟨⟨v.record.value, r⟩, by simp [enumFieldValue?, hview], readsBack_of_storedAt hstored,
        ih hanchor hcounts⟩
    | none =>
      rw [hsource, Option.isSome_none, if_neg Bool.false_ne_true] at hcounts
      obtain ⟨value, hview, hshares⟩ := sharesAnchor_of_countedAt ha hcounts.1
      exact ⟨value, by simp [enumFieldValue?, hview], hshares, ih ha hcounts.2⟩

/-- The fields of an enum that is built are read as they are written. -/
theorem fieldsRead_of_builtAt {file : String} {e : EnumSource} {v : View .typedecls}
    (hview : c.view? v.id = some v)
    (h : (DeclarationSource.enum e).BuiltAt c.records file (.typedeclTarget v.id)) :
    c.FieldsRead none 0 e.fields (c.enumFields v.record) := by
  obtain ⟨⟨r, hr, documentation, ids, hrecord, -, hstored⟩, r', hr', records, hrecords, hcounts⟩ :=
    h
  cases hr.symm.trans hr'
  cases hr.symm.trans (get?_of_view? hview)
  have hids : v.record.enumFields = ids := by rw [hrecord]
  subst hids
  have hwritten : List.Forall₂ (fun (source : EnumFieldSource) (w : View .enumFields) =>
      source.WrittenIn c.records w.record) e.fields (c.enumFields v.record) := by
    refine forall₂_views (hstored.imp ?_)
    rintro source id ⟨value, documentation, hget, hvalue, -⟩
    exact ⟨_, hget, rfl, hvalue⟩
  have hmap : (c.enumFields v.record).map View.record = records := map_record_views hrecords
  have hanchor : c.AnchorAt none none := rfl
  exact fieldsRead_of_countsFrom hwritten hanchor (hmap.symm ▸ hcounts)

/-- What a catalog keeps of the expressions that a file writes: where its unit has an expression,
and where a property has one that no accessor takes over, it is the one that is written there; and
the values of enum fields go on from each other. -/
structure KeepsExpressions (c : Catalog) (file : String) (source : FileSource) : Prop where
  listed : List.Forall₂ c.ReadsBack (source.mentions.filterMap Mention.value?)
    ((c.fileMentions file).filterMap Mention.value?)
  shared : ∀ text ∈ source.sharedMentions.filterMap Mention.value?, ∃ id, c.ReadsBack text id
  fields : List.Forall₂ (fun (e : EnumSource) (v : View .typedecls) =>
    c.FieldsRead none 0 e.fields (c.enumFields v.record)) source.enums
    (c.listAll .enums (some file))

end Catalog

namespace Database

variable {db : Database}

theorem keepsExpressions_of_moves {q : Progress} (h : Moves [] ⟨{}, []⟩ q) {b : Build}
    (hb : b ∈ q.catalog.builds) (hr : b.Reproduced q.catalog) :
    q.catalog.KeepsExpressions b.file b.source where
  listed := by
    have hmentions :=
      mentions_of_moves h hb hr (Catalog.records_within _) (Catalog.records_covers _ _)
    exact (Mention.forall₂_values hmentions).imp fun _ _ => Catalog.readsBack_of_storedAt
  shared text htext := by
    obtain ⟨m, hm, htext⟩ := List.mem_filterMap.mp htext
    obtain ⟨m', hmentioned⟩ :=
      Catalog.exists_mentioned (Catalog.records_within _) hr (Catalog.records_covers _ _) hm
    cases hmentioned with
    | type _ => cases htext
    | value hstored =>
      cases htext
      exact ⟨_, Catalog.readsBack_of_storedAt hstored⟩
  fields := by
    have henums : b.source.declarations.filter (·.heading = .enums) = b.source.enums.map .enum := by
      simp [FileSource.declarations, FileSource.declaredTypes, FileSource.declaredVariables,
        List.filter_map, Function.comp_def, DeclarationSource.heading]
    have hlists := listsBuilt_of_moves h hb hr (k := .enums) (by decide)
    rw [henums] at hlists
    refine forall₂_imp_mem (List.forall₂_map_left_iff.mp hlists) fun e _ v hv hbuilt => ?_
    obtain ⟨target, htarget, hbuilt⟩ := hbuilt
    cases htarget
    exact Catalog.fieldsRead_of_builtAt (Catalog.mem_views.mp hv).2 hbuilt

theorem Reachable.keepsExpressions_between (h : db.Reachable) {p q : Progress}
    (hp : Moves [] ⟨{}, []⟩ p) (hpq : Moves [] p q) (hq : Moves [] q ⟨db.catalog, []⟩)
    {file : String} {source : FileSource} (hbuilt : p.catalog.HasBuilt file source) :
    q.catalog.KeepsExpressions file source := by
  obtain ⟨b, hb, rfl, rfl, hr⟩ := h.reproduced_between hp hpq hq hbuilt
  exact keepsExpressions_of_moves (hp.trans hpq) hb hr

/-- Every expression that a file writes is read back as its text means it, in each state after the
file is built: between requests, and in the middle of any later one. -/
theorem Reachable.expressions_kept (h : db.Reachable) :
    (∀ db', Later db db' → ∀ file source, db.catalog.HasBuilt file source →
      db'.catalog.KeepsExpressions file source) ∧
    ∀ p q, Moves [] ⟨{}, []⟩ p → Moves [] p q → Moves [] q ⟨db.catalog, []⟩ →
      ∀ file source, p.catalog.HasBuilt file source → q.catalog.KeepsExpressions file source :=
  ⟨fun _ hlater _ _ =>
    (hlater.reachable h).keepsExpressions_between h.leads (hlater.leads h.settled) .refl,
    fun _ _ hp hpq hq _ _ => h.keepsExpressions_between hp hpq hq⟩

/-- No accessor takes over the key of the property. -/
def reckoningSource : FileSource :=
  let int : TypeSource := .named "int" ⟨false, false, false⟩ none []
  { declaredClass := some {
      name := "A"
      properties := [{
        name := "p", keys := [{ name := "k", type := int, default := some "7" }]
        getter := some {
          keys := some [], result := some { type := int, default := some "-(1 - 2)" } } }] }
    enums := [{
      name := "E", fields := [{ name := "F", value := some "1 + 2 * 3" }, { name := "G" }] }]
    constants := [{ name := "C", type := int, value := some "!E.F" }] }

def reckoningParsed : Database :=
  ((readingDatabase reckoningSource).parse cyclicDisk "a.eo").2

/-- The second file says the same as the first one. It fails, and the expressions of
the first one stay. -/
def reckoningAgain : Database :=
  (reckoningParsed.parse cyclicDisk "b.eo").2

theorem expressions_kept_reckoning :
    reckoningParsed.Reachable ∧ Later reckoningParsed reckoningAgain ∧
      reckoningParsed.catalog.HasBuilt "a.eo" reckoningSource ∧
      reckoningAgain.catalog.KeepsExpressions "a.eo" reckoningSource ∧
      ((reckoningAgain.catalog.fileMentions "a.eo").filterMap Mention.value?).map
          reckoningAgain.catalog.expressionText? =
        [some "-(1 - 2)", some "1 + (2 * 3)", some "!E.F"] ∧
      ((reckoningAgain.catalog.listAll .enums none).flatMap fun v : View .typedecls =>
          (reckoningAgain.catalog.enumFields v.record).map fun f =>
            reckoningAgain.catalog.expressionText? f.record.value) =
        [some "1 + (2 * 3)", some "(1 + (2 * 3)) + 1"] := by
  have hreachable : reckoningParsed.Reachable := .parse _ _ (readingDatabase_reachable _)
  have hlater : Later reckoningParsed reckoningAgain := .single (.parse _ cyclicDisk "b.eo")
  have hbuilt : reckoningParsed.catalog.HasBuilt "a.eo" reckoningSource :=
    hasBuilt_of_parse (by decide +kernel)
  exact ⟨hreachable, hlater, hbuilt, hreachable.expressions_kept.1 _ hlater _ _ hbuilt,
    by decide +kernel,
    by decide +kernel⟩

end Database

end InterfaceCatalog
