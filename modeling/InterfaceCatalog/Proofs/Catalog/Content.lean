import InterfaceCatalog.Catalog.Draft
import InterfaceCatalog.Proofs.Arena

namespace InterfaceCatalog

namespace Store

theorem get?_insert_next {s : Store} {t : Table} (wf : (s.arena t).WellFormed) (record : Record t) :
    (s.insert record).get? (s.next t) = some record := by
  simpa [get?, insert, next] using Arena.get?_insert_next wf record

theorem get?_insert_of_ne {s : Store} {t u : Table} (wf : (s.arena t).WellFormed)
    (record : Record t) {id : Id u} (hid : Change.inserted u id ≠ .inserted t (s.next t)) :
    (s.insert record).get? id = s.get? id := by
  by_cases htu : t = u
  · subst htu
    have hne : id.handle ≠ (s.arena t).next := by
      intro hh
      obtain ⟨handle⟩ := id
      exact hid (by simp only [next, ← hh])
    simpa [get?, insert] using Arena.get?_insert_of_ne wf record hne
  · simp only [get?, insert, arena_setArena_of_ne s _ htu]

theorem get?_modify_self (s : Store) {t : Table} (id : Id t) (f : Record t → Record t) :
    (s.modify id f).get? id = (s.get? id).map f := by
  simpa [get?, modify] using Arena.get?_modify_self _ _ f

theorem get?_modify_of_ne (s : Store) {t u : Table} {id : Id t} (f : Record t → Record t)
    {other : Id u} (hid : Change.inserted u other ≠ .inserted t id) :
    (s.modify id f).get? other = s.get? other := by
  by_cases htu : t = u
  · subst htu
    have hne : other.handle ≠ id.handle := by
      intro hh
      obtain ⟨handle⟩ := id
      obtain ⟨handle'⟩ := other
      exact hid (by simp only at hh; rw [hh])
    simpa [get?, modify] using Arena.get?_modify_of_ne _ f hne
  · simp only [get?, modify, arena_setArena_of_ne s _ htu]

theorem get?_remove_self (s : Store) {t : Table} (id : Id t) : (s.remove id).get? id = none := by
  simpa [get?, remove] using Arena.get?_remove_self _ _

theorem get?_remove_of_ne (s : Store) {t u : Table} {id : Id t} {other : Id u}
    (hid : Change.inserted u other ≠ .inserted t id) : (s.remove id).get? other = s.get? other := by
  by_cases htu : t = u
  · subst htu
    have hne : other.handle ≠ id.handle := by
      intro hh
      obtain ⟨handle⟩ := id
      obtain ⟨handle'⟩ := other
      exact hid (by simp only at hh; rw [hh])
    simpa [get?, remove] using Arena.get?_remove_of_ne _ hne
  · simp only [get?, remove, arena_setArena_of_ne s _ htu]

theorem setArena_wellFormed {s : Store} (wf : ∀ u, (s.arena u).WellFormed) {t : Table}
    {a : Arena (Record t)} (ha : a.WellFormed) (u : Table) :
    ((s.setArena t a).arena u).WellFormed := by
  by_cases htu : t = u
  · subst htu
    simpa using ha
  · rw [arena_setArena_of_ne s a htu]
    exact wf u

end Store

namespace Catalog

def WellFormed (c : Catalog) : Prop :=
  ∀ t, (c.store.arena t).WellFormed

def next (c : Catalog) (t : Table) : Id t :=
  c.store.next t

def entries (c : Catalog) (h : Heading) : List (Entry h.table) :=
  (c.registry.index h).entries

/-- A handle that finds a record. -/
def Live (c : Catalog) {t : Table} (id : Id t) : Prop :=
  (c.get? id).isSome

instance (c : Catalog) {t : Table} (id : Id t) : Decidable (c.Live id) :=
  inferInstanceAs (Decidable (_ = true))

theorem live_of_get? {c : Catalog} {t : Table} {id : Id t} {r : Record t} (h : c.get? id = some r) :
    c.Live id := by
  simp [Live, h]

theorem exists_of_live {c : Catalog} {t : Table} {id : Id t} (h : c.Live id) :
    ∃ r, c.get? id = some r :=
  Option.isSome_iff_exists.mp h

theorem empty_wellFormed : ({} : Catalog).WellFormed := by
  intro t
  cases t <;> exact Arena.empty_wellFormed

theorem get?_empty {t : Table} (id : Id t) : ({} : Catalog).get? id = none := by
  cases t <;> exact Arena.get?_empty id.handle

theorem entries_empty (h : Heading) : ({} : Catalog).entries h = [] := by
  cases h <;> rfl

theorem get?_next {c : Catalog} (wf : c.WellFormed) (t : Table) : c.get? (c.next t) = none :=
  Arena.get?_next (wf t)

theorem get?_insert_next {c : Catalog} (wf : c.WellFormed) {t : Table} (record : Record t) :
    (c.insert record).get? (c.next t) = some record :=
  Store.get?_insert_next (wf t) record

theorem get?_insert_of_ne {c : Catalog} (wf : c.WellFormed) {t u : Table} (record : Record t)
    {id : Id u} (hid : Change.inserted u id ≠ .inserted t (c.next t)) :
    (c.insert record).get? id = c.get? id :=
  Store.get?_insert_of_ne (wf t) record hid

theorem get?_insert_of_live {c : Catalog} (wf : c.WellFormed) {t u : Table} (record : Record t)
    {id : Id u} (hid : c.Live id) : (c.insert record).get? id = c.get? id := by
  apply get?_insert_of_ne wf
  intro he
  cases he
  simp [Live, get?_next wf] at hid

theorem get?_modify_self (c : Catalog) {t : Table} (id : Id t) (f : Record t → Record t) :
    (c.modify id f).get? id = (c.get? id).map f :=
  Store.get?_modify_self _ _ f

theorem get?_modify_of_ne (c : Catalog) {t u : Table} {id : Id t} (f : Record t → Record t)
    {other : Id u} (hid : Change.inserted u other ≠ .inserted t id) :
    (c.modify id f).get? other = c.get? other :=
  Store.get?_modify_of_ne _ f hid

theorem live_modify_iff (c : Catalog) {t u : Table} {id : Id t} (f : Record t → Record t)
    {other : Id u} : (c.modify id f).Live other ↔ c.Live other := by
  by_cases hid : Change.inserted u other = .inserted t id
  · cases hid
    simp [Live, get?_modify_self]
  · rw [Live, get?_modify_of_ne c f hid, Live]

theorem get?_remove_self (c : Catalog) {t : Table} (id : Id t) : (c.remove id).get? id = none :=
  Store.get?_remove_self _ _

theorem get?_remove_of_ne (c : Catalog) {t u : Table} {id : Id t} {other : Id u}
    (hid : Change.inserted u other ≠ .inserted t id) : (c.remove id).get? other = c.get? other :=
  Store.get?_remove_of_ne _ hid

theorem insert_wellFormed {c : Catalog} (wf : c.WellFormed) {t : Table} (record : Record t) :
    (c.insert record).WellFormed :=
  Store.setArena_wellFormed wf (Arena.insert_wellFormed (wf t) record)

theorem modify_wellFormed {c : Catalog} (wf : c.WellFormed) {t : Table} (id : Id t)
    (f : Record t → Record t) : (c.modify id f).WellFormed :=
  Store.setArena_wellFormed wf (Arena.modify_wellFormed (wf t) _ f)

theorem remove_wellFormed {c : Catalog} (wf : c.WellFormed) {t : Table} (id : Id t) :
    (c.remove id).WellFormed :=
  Store.setArena_wellFormed wf (Arena.remove_wellFormed (wf t) _)

theorem entries_enter_self (c : Catalog) (h : Heading) (e : Entry h.table) :
    (c.enter h e).entries h = c.entries h ++ [e] := by
  simp [entries, enter, Index.insert]

theorem entries_enter_of_ne (c : Catalog) {h k : Heading} (e : Entry h.table) (hk : h ≠ k) :
    (c.enter h e).entries k = c.entries k := by
  simp only [entries, enter, Registry.index_setIndex_of_ne c.registry _ hk]

theorem entries_strike (c : Catalog) (h k : Heading) (name : String) :
    (c.strike h name).entries k =
      (c.entries k).filter fun e => Change.registered k e.name ≠ .registered h name := by
  by_cases hk : h = k
  · subst hk
    simp [entries, strike, Index.entries_remove]
  · have hne : ∀ n, Change.registered k n ≠ .registered h name := by
      intro n he
      cases he
      exact hk rfl
    simp [entries, strike, Registry.index_setIndex_of_ne c.registry _ hk, hne]

end Catalog

/-- A change taken back removes its record, and no other. -/
theorem Change.get?_undo (c : Catalog) (change : Change) {t : Table} (id : Id t) :
    (change.undo c).get? id = if change = .inserted t id then none else c.get? id := by
  cases change with
  | inserted u other =>
    by_cases hid : Change.inserted t id = .inserted u other
    · cases hid
      rw [if_pos rfl]
      exact Catalog.get?_remove_self c id
    · rw [if_neg fun h => hid h.symm]
      exact Catalog.get?_remove_of_ne c hid
  | registered h name => rfl

theorem Change.entries_undo (c : Catalog) (change : Change) (h : Heading) :
    (change.undo c).entries h =
      (c.entries h).filter fun e => Change.registered h e.name ≠ change := by
  cases change with
  | inserted u other => simp [undo, Catalog.entries, Catalog.remove]
  | registered k name => exact Catalog.entries_strike c k h name

namespace Catalog

theorem get?_rollback (c : Catalog) (journal : List Change) {t : Table} (id : Id t) :
    (c.rollback journal).get? id = if Change.inserted t id ∈ journal then none else c.get? id := by
  induction journal generalizing c with
  | nil => simp [rollback]
  | cons change journal ih =>
    have hstep : c.rollback (change :: journal) = (change.undo c).rollback journal := rfl
    rw [hstep, ih, Change.get?_undo]
    by_cases hj : Change.inserted t id ∈ journal
    · simp [hj]
    · simp [hj, eq_comm]

theorem entries_rollback (c : Catalog) (journal : List Change) (h : Heading) :
    (c.rollback journal).entries h =
      (c.entries h).filter fun e => Change.registered h e.name ∉ journal := by
  induction journal generalizing c with
  | nil => simp [rollback]
  | cons change journal ih =>
    have hstep : c.rollback (change :: journal) = (change.undo c).rollback journal := rfl
    rw [hstep, ih, Change.entries_undo, List.filter_filter]
    apply List.filter_congr
    intro e _
    simp [Bool.and_comm]

theorem builds_rollback (c : Catalog) (journal : List Change) :
    (c.rollback journal).builds = c.builds := by
  induction journal generalizing c with
  | nil => rfl
  | cons change journal ih =>
    refine (ih (change.undo c)).trans ?_
    cases change <;> rfl

theorem rollback_wellFormed {c : Catalog} (wf : c.WellFormed) (journal : List Change) :
    (c.rollback journal).WellFormed := by
  induction journal generalizing c with
  | nil => exact wf
  | cons change journal ih =>
    apply ih
    cases change with
    | inserted t id => exact remove_wellFormed wf id
    | registered h name => exact wf

end Catalog

end InterfaceCatalog
