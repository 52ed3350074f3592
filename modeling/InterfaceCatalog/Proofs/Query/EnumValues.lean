import InterfaceCatalog.Proofs.Expression.Counting
import InterfaceCatalog.Proofs.Query.Trees

namespace InterfaceCatalog

open Catalog (restrict)

/-- A number of the least kind. -/
def Tree.int (n : Int) : Tree :=
  .literal (.value (.integer (.wrap .int n)))

/-- The value that a field is meant to have: its own one, or else the one before it plus
one, or else zero. -/
def EnumFieldSource.meaning (previous : Option Tree) (source : EnumFieldSource) : Option Tree :=
  match source.value, previous with
  | some text, _ => (Tree.parse text).toOption
  | none, some t => some (.binary .add t (.int 1))
  | none, none => some (.int 0)

/-- The values that the fields of an enum are meant to have, from one on, if those that are
written mean something. -/
def fieldMeanings : (previous : Option Tree) → List EnumFieldSource → Option (List Tree)
  | _, [] => some []
  | previous, source :: sources => do
    let t ← source.meaning previous
    let ts ← fieldMeanings (some t) sources
    pure (t :: ts)

theorem fieldMeanings_cons {previous : Option Tree} {source : EnumFieldSource}
    {sources : List EnumFieldSource} {ts : List Tree} :
    fieldMeanings previous (source :: sources) = some ts ↔
      ∃ t ts', source.meaning previous = some t ∧ fieldMeanings (some t) sources = some ts' ∧
        t :: ts' = ts := by
  simp [fieldMeanings, Option.bind_eq_some_iff]

namespace Catalog

variable {c : Catalog}

/-- What the fields behind an anchor count from: its value as a number, or zero. -/
def AnchoredAt (c : Catalog) : Option (Id .expressions) → Except EvaluationError Value → Prop
  | none, s => s = .ok (.integer (.wrap .int 0))
  | some anchor, s => c.Evaluates anchor .number s

theorem AnchoredAt.intersects {anchor : Option (Id .expressions)} {v : Value}
    (h : c.AnchoredAt anchor (.ok v)) : Mask.number.intersects v.kind.mask := by
  cases anchor with
  | none => cases h; decide
  | some a => exact Evaluates.intersects h

theorem AnchoredAt.plus_zero {anchor : Option (Id .expressions)} {s : Except EvaluationError Value}
    (h : c.AnchoredAt anchor s) : Alike (s >>= Value.plus 0) s := by
  cases s with
  | error e => exact .refl _
  | ok v => exact Value.plus_zero h.intersects

theorem restrict_int (n : Int) {mask : Mask} (hmask : mask.intersects .signedInteger) :
    restrict mask (.integer (.wrap .int n)) = .ok (.integer (.wrap .int n)) :=
  if_pos hmask

/-- A field without a value evaluates to the sum that it is stored as. -/
theorem evaluates_iff_of_countedAt {anchor : Option (Id .expressions)} {k : Nat}
    {id : Id .expressions} (h : CountedAt c.records anchor k id) (hk : k < 2 ^ 31) {mask : Mask}
    {r : Except EvaluationError Value} :
    c.Evaluates id mask r ↔ ∃ s, c.AnchoredAt anchor s ∧
      r = s >>= Value.plus k >>= restrict mask := by
  obtain ⟨offset, hoffset, hid⟩ := h
  cases anchor with
  | none =>
    subst hid
    have hint := Integer.wrap_of_holds (IntegerKind.int_holds hk)
    have hzero : Value.plus k (.integer (.wrap .int 0)) = .ok (.integer (.wrap .int k)) := by
      rw [Value.plus_integer hk, hint]
      exact (congrArg (integerValue .int) (Int.zero_add k)).trans (integerValue_of_holds _)
    rw [evaluates_value_iff hoffset]
    simp only [AnchoredAt, exists_eq_left]
    rw [Except.bind_of_eq_ok rfl, hzero]
    rfl
  | some a =>
    have hright (right : Except EvaluationError Value) :
      c.Evaluates offset BinaryOperator.add.operandMask right ↔
        right = .ok (.integer (.wrap .int k)) := by
      rw [evaluates_value_iff hoffset, restrict_int k (by decide)]
    rw [evaluates_binary_iff hid, if_neg (by decide)]
    refine exists_congr fun s => and_congr_right fun _ => ?_
    cases s with
    | error e => rfl
    | ok v => simp only [BinaryOperator.shortcut?, hright, exists_eq_left]; rfl

theorem evaluates_int_iff (n : Int) {mask : Mask} (hmask : mask.intersects .signedInteger)
    {r : Except EvaluationError Value} :
    (Tree.int n).Evaluates c mask r ↔ r = .ok (.integer (.wrap .int n)) := by
  rw [← restrict_int n hmask]
  exact Iff.rfl

theorem evaluates_succ_iff {t : Tree} {mask : Mask} {r : Except EvaluationError Value} :
    (Tree.binary .add t (.int 1)).Evaluates c mask r ↔
      ∃ s, t.Evaluates c .number s ∧ r = s >>= Value.plus 1 >>= restrict mask := by
  rw [Tree.evaluates_binary_iff, if_neg (by decide)]
  refine exists_congr fun s => and_congr_right fun _ => ?_
  have hright (right : Except EvaluationError Value) :
      (Tree.int 1).Evaluates c BinaryOperator.add.operandMask right ↔
      right = .ok (.integer (.wrap .int 1)) :=
    evaluates_int_iff 1 (by decide)
  cases s with
  | error e => rfl
  | ok v => simp only [BinaryOperator.shortcut?, hright, exists_eq_left]; rfl

/-- A tree evaluates as a number to what its anchor and a distance come to. -/
structure Sums (c : Catalog) (anchor : Option (Id .expressions)) (k : Nat) (t : Tree) : Prop where
  forth : ∀ s, c.AnchoredAt anchor s → ∃ r, t.Evaluates c .number r ∧ Alike (s >>= Value.plus k) r
  back : ∀ r, t.Evaluates c .number r → ∃ s, c.AnchoredAt anchor s ∧ Alike (s >>= Value.plus k) r

theorem sums_zero : c.Sums none 0 (.int 0) := by
  have hzero (r : Except EvaluationError Value) : (Tree.int 0).Evaluates c .number r ↔
      c.AnchoredAt none r :=
    evaluates_int_iff 0 (by decide)
  exact ⟨fun s hs => ⟨s, (hzero s).mpr hs, hs.plus_zero⟩,
    fun r hr => ⟨r, (hzero r).mp hr, ((hzero r).mp hr).plus_zero⟩⟩

theorem sums_stored {t : Tree} {id : Id .expressions} (h : t.StoredAt c.records id) :
    c.Sums (some id) 0 t := by
  have hstored (r : Except EvaluationError Value) : t.Evaluates c .number r ↔
      c.AnchoredAt (some id) r :=
    Tree.evaluates_iff_of_storedAt h
  exact ⟨fun s hs => ⟨s, (hstored s).mpr hs, hs.plus_zero⟩,
    fun r hr => ⟨r, (hstored r).mp hr, ((hstored r).mp hr).plus_zero⟩⟩

section

variable {anchor : Option (Id .expressions)} {k : Nat} {t : Tree}

theorem alike_succ (hk : k + 1 < 2 ^ 31) {s r : Except EvaluationError Value}
    (h : Alike (s >>= Value.plus k) r) : Alike (s >>= Value.plus (k + 1)) (r >>= Value.plus 1) := by
  refine Alike.trans ?_ (h.bind_plus 1)
  cases s with
  | error e => exact .refl (.error e)
  | ok v => exact v.plus_succ hk

theorem Sums.succ (h : c.Sums anchor k t) (hk : k + 1 < 2 ^ 31) :
    c.Sums anchor (k + 1) (.binary .add t (.int 1)) := by
  have hsum (r : Except EvaluationError Value) :
      r >>= Value.plus 1 >>= restrict .number = r >>= Value.plus 1 := by
    cases r with
    | error e => rfl
    | ok v => exact v.plus_restrict 1
  constructor
  · intro s hs
    obtain ⟨r, hr, halike⟩ := h.forth s hs
    exact ⟨r >>= Value.plus 1, evaluates_succ_iff.mpr ⟨r, hr, (hsum r).symm⟩, alike_succ hk halike⟩
  · intro r' hr'
    obtain ⟨r, hr, rfl⟩ := evaluates_succ_iff.mp hr'
    obtain ⟨s, hs, halike⟩ := h.back r hr
    exact ⟨s, hs, (hsum r).symm ▸ alike_succ hk halike⟩

/-- The value that is stored is as good as the value before it plus one. -/
theorem Sums.evaluates_iff (h : c.Sums anchor k t) (hk : k + 1 < 2 ^ 31) {id : Id .expressions}
    (hcounted : CountedAt c.records anchor (k + 1) id) (r : Except EvaluationError Value) :
    c.Evaluates id .integer r ↔ (Tree.binary .add t (.int 1)).Evaluates c .integer r := by
  rw [evaluates_iff_of_countedAt hcounted hk, evaluates_succ_iff]
  constructor
  · rintro ⟨s, hs, rfl⟩
    obtain ⟨r, hr, halike⟩ := h.forth s hs
    exact ⟨r, hr, (alike_succ hk halike).bind_restrict⟩
  · rintro ⟨r, hr, rfl⟩
    obtain ⟨s, hs, halike⟩ := h.back r hr
    exact ⟨s, hs, (alike_succ hk halike).bind_restrict.symm⟩

end

/-- What is known before a field: the meaning of the one before it is counted from the anchor. -/
def CountedBefore (c : Catalog) (anchor : Option (Id .expressions)) (distance : Nat) :
    Option Tree → Prop
  | none => anchor = none ∧ distance = 0
  | some t => ∃ k, distance = k + 1 ∧ c.Sums anchor k t

end Catalog

/-- The record of an enum field has the value of the field if it is written. -/
structure EnumFieldSource.WrittenIn (find : Lookup) (source : EnumFieldSource)
    (r : EnumFieldRecord) : Prop where
  isExplicit : r.isExplicit = source.value.isSome
  value : ∀ text ∈ source.value, ExpressionStoredAt find text r.value

namespace Catalog

variable {c : Catalog}

/-- A field means what its record evaluates to, and the next one is counted from there on. -/
theorem exists_meaning {anchor : Option (Id .expressions)} {distance : Nat} {previous : Option Tree}
    {source : EnumFieldSource} {r : EnumFieldRecord}
    (hbefore : c.CountedBefore anchor distance previous) (hdistance : distance < 2 ^ 31)
    (hr : source.WrittenIn c.records r)
    (hcounted : r.isExplicit = false → CountedAt c.records anchor distance r.value) :
    ∃ t, source.meaning previous = some t ∧
      (∀ result, c.Evaluates r.value .integer result ↔ t.Evaluates c .integer result) ∧
      (if r.isExplicit then c.CountedBefore (some r.value) 1 (some t)
        else c.CountedBefore anchor (distance + 1) (some t)) := by
  rw [hr.isExplicit] at hcounted ⊢
  have hvalue := hr.value
  unfold EnumFieldSource.meaning
  cases hsource : source.value with
  | some text =>
    obtain ⟨t, hparse, hstored⟩ := hvalue text hsource
    refine ⟨t, congrArg Except.toOption hparse, fun _ =>
      (Tree.evaluates_iff_of_storedAt hstored).symm, ?_⟩
    exact ⟨0, rfl, sums_stored hstored⟩
  | none =>
    replace hcounted := hcounted (by rw [hsource]; rfl)
    cases previous with
    | none =>
      obtain ⟨rfl, rfl⟩ := hbefore
      obtain ⟨offset, hoffset, rfl⟩ := hcounted
      exact ⟨_, rfl, fun _ => evaluates_value_iff hoffset, 0, rfl, sums_zero⟩
    | some t =>
      obtain ⟨k, rfl, hsums⟩ := hbefore
      exact ⟨_, rfl, hsums.evaluates_iff hdistance hcounted, k + 1, rfl, hsums.succ hdistance⟩

/-- The values of the fields from one on are what the fields mean. -/
theorem exists_fieldMeanings {sources : List EnumFieldSource} {records : List EnumFieldRecord}
    (hwritten : List.Forall₂ (EnumFieldSource.WrittenIn c.records) sources records)
    {anchor : Option (Id .expressions)} {distance : Nat} {previous : Option Tree}
    (hbefore : c.CountedBefore anchor distance previous)
    (hbound : distance + sources.length ≤ 2 ^ 31)
    (hcounts : CountsFrom c.records anchor distance records) :
    ∃ ts, fieldMeanings previous sources = some ts ∧
      List.Forall₂ (fun (t : Tree) (r : EnumFieldRecord) => ∀ result,
        c.Evaluates r.value .integer result ↔ t.Evaluates c .integer result) ts records := by
  induction hwritten generalizing anchor distance previous with
  | nil => exact ⟨[], rfl, .nil⟩
  | @cons source r sources records hr _ ih =>
    rw [List.length_cons] at hbound
    unfold CountsFrom at hcounts
    obtain ⟨t, ht, hvalue, hnext⟩ := exists_meaning hbefore (by omega) hr fun hexplicit => by
      rw [if_neg (by simp [hexplicit])] at hcounts
      exact hcounts.1
    obtain ⟨ts, hts, hvalues⟩ : ∃ ts, fieldMeanings (some t) sources = some ts ∧ _ := by
      cases hexplicit : r.isExplicit with
      | true =>
        simp only [hexplicit, if_true] at hcounts hnext
        exact ih hnext (by omega) hcounts
      | false =>
        simp only [hexplicit, Bool.false_eq_true, if_false] at hcounts hnext
        exact ih hnext (by omega) hcounts.2
    refine ⟨t :: ts, ?_, .cons hvalue hvalues⟩
    exact fieldMeanings_cons.mpr ⟨t, ts, ht, hts, rfl⟩

/-- A field without a value goes on from the one before it. -/
def Continues (c : Catalog) (f g : EnumFieldRecord) : Prop :=
  g.isExplicit = false → ∀ n : Integer, c.Evaluates f.value .integer (.ok (.integer n)) →
    c.Evaluates g.value .integer (integerValue n.kind (n.val + 1))

theorem evaluates_succ {t : Tree} {n : Integer} (h : t.Evaluates c .integer (.ok (.integer n))) :
    (Tree.binary .add t (.int 1)).Evaluates c .integer (integerValue n.kind (n.val + 1)) := by
  have hmask := Value.intersects_integer (by decide : Mask.number.intersects _) (by decide) n
  refine evaluates_succ_iff.mpr ⟨_, h.widen hmask, ?_⟩
  rw [Except.bind_of_eq_ok rfl, Value.plus_integer (by decide)]
  exact (Value.integerValue_restrict (by decide) (by decide) _ _).symm

theorem isChain_of_fieldMeanings {sources : List EnumFieldSource} {records : List EnumFieldRecord}
    {ts : List Tree} (hwritten : List.Forall₂ (EnumFieldSource.WrittenIn c.records) sources records)
    {previous : Option Tree} (hts : fieldMeanings previous sources = some ts)
    (hvalues : List.Forall₂ (fun (t : Tree) (r : EnumFieldRecord) =>
      ∀ result, c.Evaluates r.value .integer result ↔ t.Evaluates c .integer result) ts records) :
    records.IsChain c.Continues := by
  induction hwritten generalizing previous ts with
  | nil => exact .nil
  | @cons source r sources records hr hmore ih =>
    obtain ⟨t, ts, -, hrest, rfl⟩ := fieldMeanings_cons.mp hts
    obtain ⟨hvalue, hvalues⟩ := List.forall₂_cons.mp hvalues
    refine List.isChain_cons.mpr ⟨fun g hg => ?_, ih hrest hvalues⟩
    cases hmore with
    | nil => cases hg
    | @cons source' g' _ _ hg' _ =>
      cases hg
      obtain ⟨t', ts', ht', -, rfl⟩ := fieldMeanings_cons.mp hrest
      intro hexplicit n hn
      have hnone : source'.value = none := by simpa [hg'.isExplicit] using hexplicit
      have hsucc : t' = .binary .add t (.int 1) := by
        simpa [EnumFieldSource.meaning, hnone, eq_comm] using ht'
      have hnext := (List.forall₂_cons.mp hvalues).1
      exact (hnext _).mpr (hsucc ▸ evaluates_succ ((hvalue _).mp hn))

theorem countsFrom_of_append {find : Lookup} {before after : List EnumFieldRecord}
    {anchor : Option (Id .expressions)} {distance : Nat}
    (h : CountsFrom find anchor distance (before ++ after)) :
    ∃ anchor' distance', CountsFrom find anchor' distance' after := by
  induction before generalizing anchor distance with
  | nil => exact ⟨anchor, distance, h⟩
  | cons field before ih =>
    rw [List.cons_append, CountsFrom] at h
    split at h
    · exact ih h
    · exact ih h.2

theorem countedAt_of_append {find : Lookup} {between after : List EnumFieldRecord}
    {g : EnumFieldRecord} {anchor : Option (Id .expressions)} {distance : Nat}
    (h : CountsFrom find anchor distance (between ++ g :: after))
    (hbetween : ∀ x ∈ between, x.isExplicit = false) (hg : g.isExplicit = false) :
    CountedAt find anchor (distance + between.length) g.value := by
  induction between generalizing distance with
  | nil =>
    rw [List.nil_append, CountsFrom, if_neg (by simp [hg])] at h
    exact h.1
  | cons field between ih =>
    rw [List.cons_append, CountsFrom, if_neg (by simp [hbetween field])] at h
    have hcounted := ih h.2 fun x hx => hbetween x (List.mem_cons_of_mem _ hx)
    rwa [List.length_cons, Nat.add_comm between.length, ← Nat.add_assoc]

theorem tooDeep_of_mask {limit : Nat} {id : Id .expressions} {mask mask' : Mask}
    (h : c.evaluateWithin limit id mask = .error .tooDeep) :
    c.evaluateWithin limit id mask' = .error .tooDeep :=
  evaluateWithin_eq_tooDeep.mpr (evaluateWithin_eq_tooDeep.mp h)

/-- A sum with a number needs one level more than what the number is added to. -/
theorem evaluateWithin_countedAt {anchor id : Id .expressions} {k : Nat}
    (h : CountedAt c.records (some anchor) k id) {limit : Nat} {mask : Mask}
    (hne : c.evaluateWithin limit anchor mask ≠ .error .tooDeep) :
    c.evaluateWithin (limit + 1) id mask ≠ .error .tooDeep := by
  intro hdeep
  obtain ⟨offset, hoffset, hid⟩ := h
  obtain ⟨next, hfollows, mask', hnext⟩ := follows_of_tooDeep hdeep
  have hanchor : next = anchor ∨ next = offset := by
    cases hfollows with
    | name hget | operand hget => cases hid.symm.trans hget
    | left hget => cases hid.symm.trans hget; exact .inl rfl
    | right hget => cases hid.symm.trans hget; exact .inr rfl
  rcases hanchor with rfl | rfl
  · exact hne (tooDeep_of_mask hnext)
  · cases limit with
    | zero => exact hne rfl
    | succ limit =>
      rw [evaluateWithin_succ limit hoffset] at hnext
      exact failsInside_restrict mask' _ _ hnext trivial

/-- The fields of an enum evaluate to what they mean. Each one without a value is the one before it
plus one, if that is an integer, and needs at most one level more than the last one with a value. -/
structure CountsAs (c : Catalog) (sources : List EnumFieldSource) (records : List EnumFieldRecord) :
    Prop where
  written : List.Forall₂ (fun (source : EnumFieldSource) (r : EnumFieldRecord) =>
    r.name = source.name ∧ r.isExplicit = source.value.isSome) sources records
  values : ∃ ts, fieldMeanings none sources = some ts ∧
    List.Forall₂ (fun (t : Tree) (r : EnumFieldRecord) => ∃ value, c.enumFieldValue? r true =
      some value ∧
      ∀ result, c.Evaluates value.id .integer result ↔ t.Evaluates c .integer result) ts records
  continued : records.IsChain c.Continues
  nesting : ∀ before f between g after, records = before ++ f :: (between ++ g :: after) →
    f.isExplicit → (∀ x ∈ between, x.isExplicit = false) → g.isExplicit = false → ∀ limit,
    c.evaluateWithin limit f.value .integer ≠ .error .tooDeep →
    c.evaluateWithin (limit + 1) g.value .integer ≠ .error .tooDeep

theorem map_record_views {t : Table} {ids : List (Id t)} {records : List (Record t)}
    (h : List.Forall₂ (fun id r => c.get? id = some r) ids records) :
    (c.views ids).map View.record = records := by
  induction h with
  | nil => rfl
  | @cons id r ids records hr _ ih =>
    rw [views, List.filterMap_cons_some (view?_of_get? hr), List.map_cons]
    exact congrArg (r :: ·) ih

theorem forall₂_of_storedAt {find : Lookup} {sources : List EnumFieldSource}
    {records : List EnumFieldRecord} {owner : Id .typedecls} {ids : List (Id .enumFields)}
    (hstored : List.Forall₂ (EnumFieldSource.StoredAt find owner) sources ids)
    (hrecords : List.Forall₂ (fun id r => find .enumFields id = some r) ids records) :
    List.Forall₂ (fun (source : EnumFieldSource) (r : EnumFieldRecord) =>
      r.name = source.name ∧ source.WrittenIn find r) sources records := by
  induction hstored generalizing records with
  | nil => cases hrecords; exact .nil
  | cons hfield _ ih =>
    obtain ⟨r, rest, hr, hrest, rfl⟩ := List.forall₂_cons_left_iff.mp hrecords
    obtain ⟨value, documentation, hget, htext, -⟩ := hfield
    cases hget.symm.trans hr
    exact .cons ⟨rfl, rfl, htext⟩ (ih hrest)

theorem countsAs_of_counts {sources : List EnumFieldSource} {records : List EnumFieldRecord}
    {owner : Id .typedecls} {ids : List (Id .enumFields)}
    (hstored : List.Forall₂ (EnumFieldSource.StoredAt c.records owner) sources ids)
    (hrecords : List.Forall₂ (fun id r => c.get? id = some r) ids records)
    (hlive : ∀ r ∈ records, c.Live r.value) (hbound : sources.length ≤ 2 ^ 31)
    (hcounts : CountsFrom c.records none 0 records) : c.CountsAs sources records := by
  have hpairs := forall₂_of_storedAt hstored hrecords
  have hwritten := hpairs.imp fun _ _ h => h.2
  have hbefore : c.CountedBefore none 0 none := ⟨rfl, rfl⟩
  obtain ⟨ts, hts, hvalues⟩ := exists_fieldMeanings hwritten hbefore (by rwa [Nat.zero_add]) hcounts
  refine ⟨hpairs.imp fun _ _ h => ⟨h.1, h.2.isExplicit⟩, ⟨ts, hts, ?_⟩,
    isChain_of_fieldMeanings hwritten hts hvalues, ?_⟩
  · refine forall₂_imp_mem hvalues fun t _ r hr hvalue => ?_
    obtain ⟨expression, hexpression⟩ := exists_of_live (hlive r hr)
    exact ⟨⟨r.value, expression⟩, by simp [enumFieldValue?, view?_of_get? hexpression], hvalue⟩
  · rintro before f between g after rfl hf hbetween hg limit hne
    obtain ⟨anchor, distance, hfrom⟩ := countsFrom_of_append hcounts
    rw [CountsFrom, if_pos hf] at hfrom
    exact evaluateWithin_countedAt (countedAt_of_append hfrom hbetween hg) hne

end Catalog

namespace Database

/-- The enums of a file that is built count up as they are meant to. -/
theorem Reachable.enum_counts {db : Database} (h : db.Reachable) {file : String}
    {source : FileSource} (hbuilt : db.catalog.HasBuilt file source) {e : EnumSource}
    (he : e ∈ source.enums) (hcount : e.fields.length < 2 ^ 31) :
    ∃ v : View .typedecls, db.catalog.findNamed? .enums none e.name = some v ∧
      db.catalog.CountsAs e.fields ((db.catalog.enumFields v.record).map View.record) := by
  obtain ⟨b, hb, rfl, rfl⟩ := hbuilt
  have hx : DeclarationSource.enum e ∈ b.source.declarations := by
    simp [FileSource.declarations, FileSource.declaredTypes, he]
  obtain ⟨target, ⟨id, kind, id', -, htarget, hentered, -⟩, hbuiltAt⟩ :=
    (h.told.reproduced b hb).stored _ hx
  obtain ⟨hstored, hchecked⟩ := hbuiltAt db.catalog.records fun _ _ _ hget => hget
  cases htarget
  obtain ⟨r, hr, documentation, ids, hrecord, -, hstored⟩ := hstored
  obtain ⟨_, hr', records, hrecords, hcounts⟩ := hchecked
  cases hr.symm.trans hr'
  have hids : r.enumFields = ids := by rw [hrecord]
  subst hids
  refine ⟨⟨id, r⟩, (Catalog.findNamed?_of_find? hentered.found).trans (view?_of_get? hr), ?_⟩
  have hmap : (db.catalog.enumFields r).map View.record = records :=
    Catalog.map_record_views hrecords
  rw [hmap]
  refine Catalog.countsAs_of_counts hstored hrecords
    (fun field hfield => ?_) (Nat.le_of_lt hcount) hcounts
  obtain ⟨fieldId, hget⟩ := exists_of_forall₂ hrecords.flip field hfield
  exact h.keepsOwn hget ⟨.expressions, field.value⟩ (by simp [references])
    (by simp [Table.IsShared])

def countingEnum : EnumSource where
  name := "E"
  fields :=
    [{ name := "F" }, { name := "G" }, { name := "H", value := some "2147483646" }, { name := "I" },
      { name := "J" }, { name := "K", value := some "E.G + 6U" }, { name := "L" }]

def countingSource : FileSource where
  declaredClass := some { name := "A" }
  enums := [countingEnum]

def countingParsed : Database :=
  ((readingDatabase countingSource).parse cyclicDisk "a.eo").2

/-- The count goes on from zero, up to the greatest integer of the kind, and from another field. -/
theorem enum_counts_overflow :
    countingParsed.catalog.HasBuilt "a.eo" countingSource ∧ countingEnum.fields.length < 2 ^ 31 ∧
      (∃ v : View .typedecls, countingParsed.catalog.findNamed? .enums none countingEnum.name =
        some v ∧
        countingParsed.catalog.CountsAs countingEnum.fields
          ((countingParsed.catalog.enumFields v.record).map View.record)) ∧
      ((countingParsed.catalog.listAll .enums none).flatMap fun v : View .typedecls =>
        (countingParsed.catalog.enumFields v.record).map fun f =>
          countingParsed.catalog.evaluate f.record.value .integer) =
        [.ok (.integer ⟨.int, 0, by decide⟩), .ok (.integer ⟨.int, 1, by decide⟩),
          .ok (.integer ⟨.int, 2147483646, by decide⟩),
          .ok (.integer ⟨.int, 2147483647, by decide⟩),
          .error .overflow, .ok (.integer ⟨.uint, 7, by decide⟩),
          .ok (.integer ⟨.uint, 8, by decide⟩)] := by
  have hreachable : countingParsed.Reachable := .parse _ _ (readingDatabase_reachable _)
  have hbuilt : countingParsed.catalog.HasBuilt "a.eo" countingSource :=
    hasBuilt_of_parse (by decide +kernel)
  exact ⟨hbuilt, by decide, hreachable.enum_counts hbuilt List.mem_cons_self (by decide),
    by decide +kernel⟩

end Database

end InterfaceCatalog
