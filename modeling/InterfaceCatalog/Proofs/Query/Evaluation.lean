import InterfaceCatalog.Proofs.Database.Namespace
import InterfaceCatalog.Proofs.Database.Permanence
import InterfaceCatalog.Proofs.Expression.Parsing
import InterfaceCatalog.Query.Evaluation

namespace InterfaceCatalog

namespace Catalog

variable {c c' : Catalog}

/-- Records find what they refer to in the tables that are not shared between files. -/
def KeepsOwn (c : Catalog) : Prop :=
  ∀ {t : Table} {id : Id t} {r : Record t}, c.get? id = some r → ∀ ref ∈ references t r,
    ¬ ref.table.IsShared → c.Live ref.id

theorem keepsOwn (hs : Database.Settled c) {failed : List Build}
    (hl : Progress.Linked ⟨c, []⟩ failed) : c.KeepsOwn := by
  intro t id r hr ref href hshared
  obtain ⟨o, ho, hid⟩ := (Accounted.live_iff hs id).mp (live_of_get? hr)
  obtain ⟨b, hb, rfl⟩ := List.mem_map.mp (by simpa [owners] using ho)
  exact (live_or_lost hs hb (hl.held b hb id r hid hr ref href)).resolve_right fun hlost =>
    hshared hlost.1

theorem Extends.view? (h : c.Extends c') {t : Table} {id : Id t} {v : View t}
    (hv : c.view? id = some v) : c'.view? id = some v := by
  obtain ⟨r, hr, rfl⟩ := Option.map_eq_some_iff.mp hv
  rw [Catalog.view?, h.kept id r hr, Option.map_some]

theorem Extends.views (h : c.Extends c') {t : Table} {ids : List (Id t)}
    (hall : ∀ id ∈ ids, c.Live id) : c'.views ids = c.views ids := by
  refine List.filterMap_congr fun id hid => ?_
  obtain ⟨r, hr⟩ := exists_of_live (hall id hid)
  have hview : c.view? id = some ⟨id, r⟩ := view?_of_get? hr
  rw [hview, h.view? hview]

theorem findNamed?_eq_some {k : Heading} {name : String} {v : View k.table}
    (hv : c.findNamed? k none name = some v) :
    ∃ e, (c.registry.index k).find? name = some e ∧ c.view? e.id = some v := by
  unfold findNamed? at hv
  split at hv
  next => cases hv
  next e he => exact ⟨e, he, by simpa using hv⟩

theorem findNamed?_of_find? {k : Heading} {name : String} {e : Entry k.table}
    (he : (c.registry.index k).find? name = some e) : c.findNamed? k none name = c.view? e.id := by
  unfold findNamed?
  rw [he]
  simp

theorem Extends.findNamed? (h : c.Extends c') {k : Heading} {name : String} {v : View k.table}
    (hv : c.findNamed? k none name = some v) : c'.findNamed? k none name = some v := by
  obtain ⟨e, he, hview⟩ := findNamed?_eq_some hv
  rw [findNamed?_of_find? (h.find? he), h.view? hview]

/-- Every entry leads to a record, so that only names without an entry are not found. -/
theorem find?_eq_none_of_findNamed? (hs : Database.Settled c) {k : Heading} {name : String}
    (hnone : c.findNamed? k none name = none) : (c.registry.index k).find? name = none := by
  cases he : (c.registry.index k).find? name with
  | none => rfl
  | some e =>
    obtain ⟨hmem, -⟩ := find?_eq_some he
    obtain ⟨r, hr⟩ := exists_of_live (Accounted.live_entry hs hmem)
    rw [findNamed?_of_find? he, Catalog.view?, hr] at hnone
    cases hnone

theorem findNamed?_eq_none {k : Heading} {name : String}
    (hnone : (c.registry.index k).find? name = none) : c.findNamed? k none name = none := by
  unfold findNamed?
  rw [hnone]

/-- A variable of any file has the name. -/
def isVariable (c : Catalog) (name : String) : Bool :=
  (c.registry.constants.find? name).isSome || (c.registry.globals.find? name).isSome

theorem Extends.namedField? (h : c.Extends c') (hown : c.KeepsOwn) {name : String}
    {f : View .enumFields} (hf : c.namedField? name = some f) : c'.namedField? name = some f := by
  obtain ⟨⟨owner, field⟩, hsplit, hf⟩ := Option.bind_eq_some_iff.mp hf
  obtain ⟨declared, hdeclared, hf⟩ := Option.bind_eq_some_iff.mp hf
  obtain ⟨e, -, hview⟩ := findNamed?_eq_some hdeclared
  obtain ⟨r, hr, rfl⟩ := Option.map_eq_some_iff.mp hview
  have hlive : ∀ id ∈ r.enumFields, c.Live id := fun id hid => by
    refine hown hr ⟨.enumFields, id⟩ ?_ (by simp [Table.IsShared])
    simp [references, Reference.ofList, hid]
  have hfields : c'.enumField? r field = c.enumField? r field := by
    unfold enumField? enumFields
    rw [h.views hlive]
  simp only [Catalog.namedField?, hsplit, h.findNamed? hdeclared, Option.bind_eq_bind,
    Option.bind_some]
  exact hfields.trans hf

/-- What a global stands for is no constant. -/
theorem global_kind (hs : Database.Settled c) (hstands : ∀ b ∈ c.builds, b.Stands c) {name : String}
    {v : View .variables} (hv : c.findNamed? .globals none name = some v) :
    v.record.kind = .global := by
  obtain ⟨e, he, hview⟩ := findNamed?_eq_some hv
  obtain ⟨r, hr, rfl⟩ := Option.map_eq_some_iff.mp hview
  obtain ⟨hmem, -⟩ := find?_eq_some he
  obtain ⟨b, -, -, id, -, -, -, -, -, hentered, -⟩ := declares_of_entry hs hstands (by decide) hmem
  have hid : e.id = id :=
    congrArg Entry.id (hentered.entry_eq (Accounted.names_nodup hs .globals) hmem rfl)
  have hlabel := hentered.labelled
  rw [← hid, label?, hr, Option.bind_some, label] at hlabel
  obtain ⟨h, hkind, heq⟩ := Option.map_eq_some_iff.mp hlabel
  simp only [Label.mk.injEq, Role.listed.injEq] at heq
  rw [heq.2.2] at hkind
  revert hkind
  cases r.kind <;> simp [VariableKind.heading?]

/-- The name is that of a constant, and the expression is its value. -/
def DefinedByConstant (c : Catalog) (name : String) (target : Id .expressions) : Prop :=
  ∃ v, c.findNamed? .constants none name = some v ∧ v.record.kind = .constant ∧
    ∃ value, c.optionView? v.record.value = some value ∧ value.id = target

/-- The name is that of an enum field and of no variable, and the expression is the
value of the field. -/
def DefinedByField (c : Catalog) (name : String) (target : Id .expressions) : Prop :=
  c.isVariable name = false ∧ ∃ f, c.namedField? name = some f ∧
    ∃ value, c.view? f.record.value = some value ∧ value.id = target

theorem definition_of_constant {name : String} {target : Id .expressions}
    (h : c.DefinedByConstant name target) : c.definition name = .ok target := by
  obtain ⟨v, hv, hkind, value, hvalue, rfl⟩ := h
  unfold definition
  simp only [hv, Option.some_or, hkind, if_true, hvalue]

theorem definition_of_field {name : String} {target : Id .expressions}
    (h : c.DefinedByField name target) : c.definition name = .ok target := by
  obtain ⟨hfree, f, hf, value, hvalue, rfl⟩ := h
  simp only [isVariable, Bool.or_eq_false_iff, Option.isSome_eq_false_iff,
    Option.isNone_iff_eq_none] at hfree
  have hconstant : c.findNamed? .constants none name = none := findNamed?_eq_none hfree.1
  have hglobal : c.findNamed? .globals none name = none := findNamed?_eq_none hfree.2
  unfold definition
  simp only [hconstant, hglobal, Option.none_or, hf, Option.bind_some, enumFieldValue?,
    Bool.or_true, if_true, hvalue]

theorem definition_cases (hs : Database.Settled c) (hstands : ∀ b ∈ c.builds, b.Stands c)
    {name : String} {target : Id .expressions} (h : c.definition name = .ok target) :
    c.DefinedByConstant name target ∨ c.DefinedByField name target := by
  unfold definition at h
  simp only at h
  cases hconstant : c.findNamed? .constants none name with
  | some v =>
    simp only [hconstant, Option.some_or] at h
    split at h
    next hkind =>
      split at h
      next value hvalue => cases h; exact .inl ⟨v, hconstant, hkind, value, hvalue, rfl⟩
      next => cases h
    next => cases h
  | none =>
    cases hglobal : c.findNamed? .globals none name with
    | some v =>
      simp only [hconstant, hglobal, Option.none_or, global_kind hs hstands hglobal] at h
      cases h
    | none =>
      simp only [hconstant, hglobal, Option.none_or] at h
      have hfree : c.isVariable name = false := by
        have hc : c.registry.constants.find? name = none := find?_eq_none_of_findNamed? hs hconstant
        have hg : c.registry.globals.find? name = none := find?_eq_none_of_findNamed? hs hglobal
        simp [isVariable, hc, hg]
      cases hfield : c.namedField? name with
      | none => rw [hfield] at h; cases h
      | some f =>
        simp only [hfield, Option.bind_some, enumFieldValue?, Bool.or_true, if_true] at h
        split at h
        next value hvalue => cases h; exact .inr ⟨hfree, f, hfield, value, hvalue, rfl⟩
        next => cases h

/-- What a name stands for in an expression stays so, unless it is an enum field and a
variable takes its name. -/
theorem Extends.definition (h : c.Extends c') (hs : Database.Settled c) (hown : c.KeepsOwn)
    (hstands : ∀ b ∈ c.builds, b.Stands c) {name : String} {target : Id .expressions}
    (hname : c.isVariable name = false → c'.isVariable name = false)
    (hd : c.definition name = .ok target) : c'.definition name = .ok target := by
  rcases definition_cases hs hstands hd with ⟨v, hv, hkind, value, hvalue, htarget⟩ |
    ⟨hfree, f, hf, value, hvalue, htarget⟩
  · obtain ⟨id, hid, hview⟩ := Option.bind_eq_some_iff.mp hvalue
    have hvalue' : c'.optionView? v.record.value = some value := by
      rw [optionView?, hid, Option.bind_some, h.view? hview]
    exact definition_of_constant ⟨v, h.findNamed? hv, hkind, value, hvalue', htarget⟩
  · exact definition_of_field ⟨hname hfree, f, h.namedField? hown hf, value,
      h.view? hvalue, htarget⟩

/-- The names that the evaluation of an expression follows. -/
def followed (c : Catalog) : (limit : Nat) → Id .expressions → List String
  | 0, _ => []
  | limit + 1, id =>
    match c.get? id with
    | none => []
    | some (.literal (.value _)) => []
    | some (.literal (.name n)) =>
      n :: match c.definition n with
        | .ok target => c.followed limit target
        | .error _ => []
    | some (.unary _ t) => c.followed limit t
    | some (.binary o t u) =>
      c.followed limit t ++
        match c.evaluateWithin limit t o.operandMask with
        | .ok v => if (o.shortcut? v.isTrue).isSome then [] else c.followed limit u
        | .error _ => []

/-- The value of a node, before it is held against the mask. -/
def nodeValue (c : Catalog) (limit : Nat) (mask : Mask) :
    ExpressionRecord → Except EvaluationError Value
  | .literal (.value v) => .ok v
  | .literal (.name n) => do
    let target ← c.definition n
    c.evaluateWithin limit target mask
  | .unary o t =>
    if o = .invalid then .error .invalidOperator
    else do
      let v ← c.evaluateWithin limit t o.operandMask
      o.apply v
  | .binary o t u =>
    if o = .invalid then .error .invalidOperator
    else do
      let v ← c.evaluateWithin limit t o.operandMask
      match o.shortcut? v.isTrue with
      | some b => .ok (.bool b)
      | none => do
        let w ← c.evaluateWithin limit u o.operandMask
        o.apply v w

theorem evaluateWithin_succ (limit : Nat) {id : Id .expressions} {r : ExpressionRecord}
    (hget : c.get? id = some r) (mask : Mask) :
    c.evaluateWithin (limit + 1) id mask = c.nodeValue limit mask r >>= restrict mask := by
  unfold evaluateWithin
  simp only [hget]
  rcases r with (v | n) | ⟨o, t⟩ | ⟨o, t, u⟩ <;> simp only [nodeValue, bind, Except.bind]
  · cases c.definition n with
    | error e => rfl
    | ok target =>
      dsimp only
      cases c.evaluateWithin limit target mask <;> rfl
  · by_cases ho : o = .invalid
    · simp only [if_pos ho]
    · simp only [if_neg ho]
      cases c.evaluateWithin limit t o.operandMask with
      | error e => rfl
      | ok v =>
        dsimp only
        cases o.apply v <;> rfl
  · by_cases ho : o = .invalid
    · simp only [if_pos ho]
    · simp only [if_neg ho]
      cases c.evaluateWithin limit t o.operandMask with
      | error e => rfl
      | ok v =>
        dsimp only
        cases o.shortcut? v.isTrue with
        | some b => rfl
        | none =>
          cases c.evaluateWithin limit u o.operandMask with
          | error e => rfl
          | ok w =>
            dsimp only
            cases o.apply v w <;> rfl

/-- A value does not change in a larger catalog in which no new variable has a name
that leads to it. -/
theorem Extends.evaluateWithin (h : c.Extends c') (hs : Database.Settled c) (hown : c.KeepsOwn)
    (hstands : ∀ b ∈ c.builds, b.Stands c) {limit : Nat} {id : Id .expressions}
    {mask : Mask} {v : Value}
    (hnames : ∀ n ∈ c.followed limit id, c.isVariable n = false → c'.isVariable n = false)
    (hv : c.evaluateWithin limit id mask = .ok v) : c'.evaluateWithin limit id mask = .ok v := by
  induction limit generalizing id mask v with
  | zero => cases hv
  | succ limit ih =>
    obtain ⟨r, hget⟩ : ∃ r, c.get? id = some r := by
      cases hget : c.get? id with
      | some r => exact ⟨r, rfl⟩
      | none =>
        unfold Catalog.evaluateWithin at hv
        simp only [hget] at hv
        cases hv
    rw [evaluateWithin_succ limit hget] at hv
    rw [evaluateWithin_succ limit (h.kept id r hget)]
    obtain ⟨w, hw, hrestrict⟩ := Except.bind_eq_ok hv
    unfold followed at hnames
    rw [hget] at hnames
    suffices hw' : c'.nodeValue limit mask r = .ok w from (Except.bind_of_eq_ok hw').trans hrestrict
    cases r with
    | literal l =>
      cases l with
      | value v => exact hw
      | name n =>
        obtain ⟨target, hd, ht⟩ := Except.bind_eq_ok hw
        have hd' := h.definition hs hown hstands (hnames n List.mem_cons_self) hd
        have ht' := ih (fun m hm => hnames m (by simp [hd, hm])) ht
        exact (Except.bind_of_eq_ok hd').trans ht'
    | unary o t =>
      simp only [nodeValue] at hw ⊢
      split at hw
      next => cases hw
      next ho =>
        rw [if_neg ho]
        obtain ⟨x, hx, happly⟩ := Except.bind_eq_ok hw
        exact (Except.bind_of_eq_ok (ih hnames hx)).trans happly
    | binary o t u =>
      simp only [nodeValue] at hw ⊢
      split at hw
      next => cases hw
      next ho =>
        rw [if_neg ho]
        obtain ⟨x, hx, hrest⟩ := Except.bind_eq_ok hw
        have hx' := ih (fun m hm => hnames m (List.mem_append_left _ hm)) hx
        refine (Except.bind_of_eq_ok hx').trans ?_
        cases hshort : o.shortcut? x.isTrue with
        | some b => rwa [hshort] at hrest
        | none =>
          rw [hshort] at hrest
          obtain ⟨y, hy, happly⟩ := Except.bind_eq_ok hrest
          have hy' := ih (fun m hm => hnames m (by simp [hx, hshort, hm])) hy
          exact (Except.bind_of_eq_ok hy').trans happly

end Catalog

namespace Database

theorem Reachable.keepsOwn {db : Database} (h : db.Reachable) : db.catalog.KeepsOwn := by
  obtain ⟨failed, hcourse⟩ := h.exists_course
  exact Catalog.keepsOwn h.settled (hcourse.linked settled_empty linked_empty)

/-- An expression keeps its value whatever is loaded later on, as long as none of the enum fields
that its evaluation follows gets a variable of the same name. -/
theorem Reachable.evaluate_stable {db db' : Database} (h : db.Reachable) (hlater : Later db db')
    {id : Id .expressions} {mask : Mask} {v : Value} (hv : db.catalog.evaluate id mask = .ok v)
    (hnames : ∀ n ∈ db.catalog.followed maximumDepth id, db.catalog.isVariable n = false →
      db'.catalog.isVariable n = false) : db'.catalog.evaluate id mask = .ok v := by
  have hextends : db.catalog.Extends db'.catalog := Moves.extends (hlater.leads h.settled) h.settled
  exact hextends.evaluateWithin h.settled h.keepsOwn h.stands hnames hv

/-- The first file has a constant that is an enum field, the second one a constant of the given
name. -/
def fieldDatabase (name : String) : Database :=
  let int : TypeSource := .named "int" ⟨false, false, false⟩ none []
  { cyclicDatabase with
    reader := fun _ text =>
      if text = "a" then
        .ok {
          declaredClass := some { name := "A" }
          enums := [{ name := "E", fields := [{ name := "F", value := some "1" }] }]
          constants := [{ name := "C", type := int, value := some "E.F" }] }
      else
        .ok {
          declaredClass := some { name := "B" }
          constants := [{ name, type := int, value := some "2" }] } }

def fieldParsed (name : String) : Database :=
  ((fieldDatabase name).parse cyclicDisk "a.eo").2

theorem fieldParsed_reachable (name : String) : (fieldParsed name).Reachable :=
  .parse cyclicDisk "a.eo" (scanned_reachable _)

/-- The second file declares another name, so that the field keeps its meaning. -/
theorem evaluate_stable_field :
    "b.eo" ∈ ((fieldParsed "E.G").parse cyclicDisk "b.eo").2.catalog.parsed ∧
      (fieldParsed "E.G").catalog.followed maximumDepth ⟨1, 0⟩ = ["E.F"] ∧
      ((fieldParsed "E.G").parse cyclicDisk "b.eo").2.catalog.evaluate ⟨1, 0⟩ .all =
        .ok (.integer ⟨.int, 1, by decide⟩) := by
  have hfollowed : (fieldParsed "E.G").catalog.followed maximumDepth ⟨1, 0⟩ = ["E.F"] := by
    decide +kernel
  refine ⟨by decide +kernel, hfollowed, ?_⟩
  refine (fieldParsed_reachable "E.G").evaluate_stable (.single (.parse _ cyclicDisk "b.eo"))
    (by decide +kernel) fun n hn _ => ?_
  rw [hfollowed, List.mem_singleton] at hn
  subst hn
  decide +kernel

/-- The second file declares a constant with the name of the field. -/
theorem evaluate_overridden :
    (fieldParsed "E.F").Reachable ∧
      Later (fieldParsed "E.F") ((fieldParsed "E.F").parse cyclicDisk "b.eo").2 ∧
      (fieldParsed "E.F").catalog.evaluate ⟨1, 0⟩ .all = .ok (.integer ⟨.int, 1, by decide⟩) ∧
      ((fieldParsed "E.F").parse cyclicDisk "b.eo").2.catalog.evaluate ⟨1, 0⟩ .all =
        .ok (.integer ⟨.int, 2, by decide⟩) :=
  ⟨fieldParsed_reachable _, .single (.parse _ _ _), by decide +kernel, by decide +kernel⟩

end Database

end InterfaceCatalog
