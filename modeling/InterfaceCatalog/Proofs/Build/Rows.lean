import InterfaceCatalog.Catalog.Build
import InterfaceCatalog.Proofs.Build.Run

namespace InterfaceCatalog

/-- Whether a record stays as it is. Classes and declared types are filled after they are entered,
and a function of a class gets its implement after it is stored. -/
def IsFinal : (t : Table) → Record t → Prop
  | .classes, _ | .typedecls, _ => False
  | .functions, r => r.kind = .pointer ∨ r.implement.isSome
  | _, _ => True

theorem rel_imp {α β : Type} {R S : α → β → Prop} {o : Option α} {o' : Option β}
    (h : Option.Rel R o o') (hi : ∀ a b, R a b → S a b) : Option.Rel S o o' := by
  cases h with
  | none => exact .none
  | some hab => exact .some (hi _ _ hab)

theorem isSome_eq_of_rel {α β : Type} {R : α → β → Prop} {o : Option α} {o' : Option β}
    (h : Option.Rel R o o') : o'.isSome = o.isSome := by
  cases h <;> rfl

namespace Draft

/-- All records of a build that stay as they are are found. -/
def PartsIn (d : Draft) (find : Lookup) : Prop :=
  ∀ {t : Table} (id : Id t) (r : Record t), IsFinal t r → d.Owns id → d.catalog.get? id = some r →
    find t id = some r

/-- What the parts of a build are enough to tell. It can be told later on, too. -/
def Shows (d : Draft) (P : Lookup → Prop) : Prop :=
  ∀ find, d.PartsIn find → P find

variable {rewritten : List Change} {d d' : Draft} {P : Lookup → Prop}

theorem shows_record {t : Table} {id : Id t} {r : Record t} (own : d.Owns id)
    (hget : d.catalog.get? id = some r) (hr : IsFinal t r) :
    d.Shows fun find => find t id = some r :=
  fun _ hfind => hfind id r hr own hget

/-- The build finds its own parts. -/
theorem Shows.self (h : d.Shows P) : P fun _ id => d.catalog.get? id :=
  h _ fun _ _ _ _ hget => hget

/-- The records of its journal are enough. -/
theorem Shows.own (h : d.Shows P) : P (d.catalog.own d.journal) :=
  h _ fun _ _ _ hid hget => Catalog.own_eq_some_iff.mpr ⟨hid, hget⟩

theorem Grows.shows_of (g : d.Grows rewritten d')
    (hopen : ∀ {t : Table} (id : Id t) (r : Record t), Change.inserted t id ∈ rewritten →
      d.catalog.get? id = some r → ¬ IsFinal t r) (h : d.Shows P) : d'.Shows P :=
  fun find hfind => h find fun id r hr own hget =>
    hfind id r hr (g.owns own) (g.kept id r hget fun hid => hopen id r hid hget hr)

theorem Grows.shows (g : d.Grows [] d') (h : d.Shows P) : d'.Shows P :=
  g.shows_of (fun _ _ hid => absurd hid List.not_mem_nil) h

theorem shows_forall₂ {α β : Type} {R : α → β → Lookup → Prop} {as : List α} {bs : List β}
    (h : List.Forall₂ (fun a b => d.Shows (R a b)) as bs) :
    d.Shows fun find => List.Forall₂ (fun a b => R a b find) as bs :=
  fun find hfind => h.imp fun _ _ hab => hab find hfind

theorem shows_rel {α β : Type} {R : α → β → Lookup → Prop} {o : Option α} {o' : Option β}
    (h : Option.Rel (fun a b => d.Shows (R a b)) o o') :
    d.Shows fun find => Option.Rel (fun a b => R a b find) o o' :=
  fun find hfind => rel_imp h fun _ _ hab => hab find hfind

end Draft

theorem insertPart_runs {p : Place} {d : Draft} {t : Table} {record : Record t}
    (hb : AllBacked d.catalog d.journal record) (hr : IsFinal t record)
    (hm : p.Allows d t record) :
    Runs p [] d (Building.insert record)
      fun id d' => d'.Owns id ∧ d'.Shows fun find => find t id = some record :=
  (insert_runs hb hm).imp fun _ _ _ h => ⟨h.1, Draft.shows_record h.1 h.2.1 hr⟩

/-- A property of a result that stays true while a build goes on. -/
def Lasting {β : Type} (rewritten : List Change) (P : β → Draft → Prop) : Prop :=
  ∀ {d d' : Draft} (b : β), d.Grows rewritten d' → P b d → P b d'

theorem lasting_owns {rewritten : List Change} (t : Table) :
    Lasting rewritten fun (id : Id t) d => d.Owns id :=
  fun _ h hid => h.owns hid

theorem lasting_live {rewritten : List Change} (t : Table) :
    Lasting rewritten fun (id : Id t) d => d.catalog.Live id :=
  fun id h hid => h.live id hid

theorem lasting_true {β : Type} {rewritten : List Change} :
    Lasting rewritten fun (_ : β) _ => True :=
  fun _ _ _ => trivial

theorem lasting_stored {β : Type} {O : β → Draft → Prop} (hO : Lasting [] O)
    {R : β → Lookup → Prop} : Lasting [] fun b d => O b d ∧ d.Shows (R b) :=
  fun b g h => ⟨hO b g h.1, g.shows h.2⟩

section

variable {α β : Type} {p : Place} {rewritten : List Change} {d : Draft} {P : β → Draft → Prop}

theorem optional_runs_rel {P : α → β → Draft → Prop} {build : α → Building β} {o : Option α}
    (hb : ∀ a ∈ o, Runs p rewritten d (build a) (P a)) :
    Runs p rewritten d (Building.optional build o)
      fun o' d' => Option.Rel (fun a b => P a b d') o o' := by
  cases o with
  | none => exact Runs.pure .none
  | some a =>
    refine Runs.bind_same (hb a rfl) (fun b d' _ h => ?_)
    exact Runs.pure (.some h)

/-- Each result of a row goes with what it was built from. -/
theorem each_runs_forall₂ {P : α → β → Draft → Prop} (hP : ∀ a, Lasting rewritten (P a))
    {build : α → Building β} {as : List α}
    (hb : ∀ a ∈ as, ∀ d', d.Grows rewritten d' → Runs p rewritten d' (build a) (P a)) :
    Runs p rewritten d (Building.each build as)
      fun bs d' => List.Forall₂ (fun a b => P a b d') as bs := by
  induction as generalizing d with
  | nil => exact Runs.pure .nil
  | cons a as ih =>
    refine Runs.bind_same (hb a (by simp) d (.refl d)) (fun b d₁ g₁ hb₁ => ?_)
    refine Runs.bind_same (ih fun a' ha' d' g => hb a' (by simp [ha']) d' (g₁.trans g))
      (fun bs d₂ g₂ hbs => ?_)
    exact Runs.pure (.cons (hP a b g₂ hb₁) hbs)

/-- No two members of a row have the same name, and none has one of a member before the row. -/
theorem distinctly_runs_forall₂ {P : α → β → Draft → Prop} (hP : ∀ a, Lasting rewritten (P a))
    {owner : String} {name : α → String} {build : α → Building β} {seen : List String} {as : List α}
    (hb : ∀ a ∈ as, ∀ d', d.Grows rewritten d' → Runs p rewritten d' (build a) (P a)) :
    Runs p rewritten d (Building.distinctly owner name build seen as)
      fun bs d' => List.Forall₂ (fun a b => P a b d') as bs ∧ (as.map name).Nodup ∧
        ∀ a ∈ as, name a ∉ seen := by
  induction as generalizing d seen with
  | nil => exact Runs.pure ⟨.nil, List.nodup_nil, by simp⟩
  | cons a as ih =>
    unfold Building.distinctly
    refine Runs.guarded (fun h => h) fun hseen => ?_
    refine Runs.bind_same (hb a (by simp) d (.refl d)) (fun b d₁ g₁ hb₁ => ?_)
    refine Runs.bind_same (ih fun a' ha' d' g => hb a' (by simp [ha']) d' (g₁.trans g))
      (fun bs d₂ g₂ hbs => ?_)
    obtain ⟨hrow, hnodup, hfresh⟩ := hbs
    refine Runs.pure ⟨.cons (hP a b g₂ hb₁) hrow, ?_, ?_⟩
    · refine List.nodup_cons.mpr ⟨fun hmem => ?_, hnodup⟩
      obtain ⟨a', ha', hname⟩ := List.mem_map.mp hmem
      exact hfresh a' ha' (by simp [hname])
    · refine List.forall_mem_cons.mpr ⟨by simpa using hseen, fun a' ha' hmem => ?_⟩
      exact hfresh a' ha' (List.mem_cons_of_mem _ hmem)

theorem forall_mem_of_forall₂ {P : β → Prop} {as : List α} {bs : List β}
    (h : List.Forall₂ (fun _ b => P b) as bs) : ∀ b ∈ bs, P b := by
  induction h with
  | nil => simp
  | cons hb _ ih => simpa using ⟨hb, ih⟩

theorem each_runs (hP : Lasting rewritten P) {build : α → Building β} {as : List α}
    (hb : ∀ a ∈ as, ∀ d', d.Grows rewritten d' → Runs p rewritten d' (build a) P) :
    Runs p rewritten d (Building.each build as)
      fun bs d' => bs.length = as.length ∧ ∀ b ∈ bs, P b d' :=
  (each_runs_forall₂ (fun _ => hP) hb).imp fun _ _ _ h =>
    ⟨h.length_eq.symm, forall_mem_of_forall₂ h⟩

end

section

variable {α β : Type} {p : Place} {d : Draft} {O : β → Draft → Prop} {R : α → β → Lookup → Prop}
  {build : α → Building β}

theorem optional_stored_runs {o : Option α}
    (hb : ∀ a ∈ o, Runs p [] d (build a) fun b d' => O b d' ∧ d'.Shows (R a b)) :
    Runs p [] d (Building.optional build o) fun o' d' =>
      (∀ b ∈ o', O b d') ∧ d'.Shows fun find => Option.Rel (fun a b => R a b find) o o' := by
  refine (optional_runs_rel hb).imp fun o' d' _ h =>
    ⟨?_, Draft.shows_rel (rel_imp h fun _ _ hab => hab.2)⟩
  cases h with
  | none => simp
  | some hab => simpa using hab.1

theorem each_stored_runs (hO : Lasting [] O) {as : List α}
    (hb : ∀ a ∈ as, ∀ d', d.Grows [] d' →
      Runs p [] d' (build a) fun b d'' => O b d'' ∧ d''.Shows (R a b)) :
    Runs p [] d (Building.each build as) fun bs d' =>
      (∀ b ∈ bs, O b d') ∧ d'.Shows fun find => List.Forall₂ (fun a b => R a b find) as bs :=
  (each_runs_forall₂ (fun _ => lasting_stored hO) hb).imp fun _ _ _ h =>
    ⟨forall_mem_of_forall₂ (h.imp fun _ _ hab => hab.1),
      Draft.shows_forall₂ (h.imp fun _ _ hab => hab.2)⟩

theorem distinctly_stored_runs (hO : Lasting [] O) {owner : String} {name : α → String}
    {seen : List String} {as : List α}
    (hb : ∀ a ∈ as, ∀ d', d.Grows [] d' →
      Runs p [] d' (build a) fun b d'' => O b d'' ∧ d''.Shows (R a b)) :
    Runs p [] d (Building.distinctly owner name build seen as) fun bs d' =>
      (∀ b ∈ bs, O b d') ∧ (d'.Shows fun find => List.Forall₂ (fun a b => R a b find) as bs) ∧
        (as.map name).Nodup :=
  (distinctly_runs_forall₂ (fun _ => lasting_stored hO) hb).imp fun _ _ _ h =>
    ⟨forall_mem_of_forall₂ (h.1.imp fun _ _ hab => hab.1),
      Draft.shows_forall₂ (h.1.imp fun _ _ hab => hab.2), h.2.1⟩

end

end InterfaceCatalog
