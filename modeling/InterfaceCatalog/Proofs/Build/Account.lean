import InterfaceCatalog.Proofs.Catalog.Tables
import Mathlib.Data.List.Flatten

namespace InterfaceCatalog

/-- A file with the changes that its build has made so far, newest first. -/
structure Owner where
  file : String
  journal : List Change

def Owner.note (o : Owner) (change : Change) : Owner :=
  { o with journal := change :: o.journal }

def Build.owner (b : Build) : Owner :=
  ⟨b.file, b.journal⟩

structure Accounted (c : Catalog) (owners : List Owner) : Prop where
  wellFormed : c.WellFormed
  files_nodup : (owners.map Owner.file).Nodup
  changes_nodup : (owners.flatMap Owner.journal).Nodup
  live_iff : ∀ {t : Table} (id : Id t), c.Live id ↔ ∃ o ∈ owners, Change.inserted t id ∈ o.journal
  names_nodup : ∀ h, ((c.entries h).map Entry.name).Nodup
  ids_nodup : ∀ h, ((c.entries h).map Entry.id).Nodup
  inStep : c.InStep
  owner_of_entry : ∀ h, ∀ e ∈ c.entries h, ∃ o ∈ owners,
    o.file = e.file ∧ Change.registered h e.name ∈ o.journal ∧
    Change.inserted h.table e.id ∈ o.journal
  entry_of_change : ∀ o ∈ owners, ∀ h name, Change.registered h name ∈ o.journal →
    ∃ e ∈ c.entries h, e.name = name ∧ e.file = o.file

theorem find?_eq_none_iff {t : Table} {index : Index t} {name : String} :
    index.find? name = none ↔ ∀ e ∈ index.entries, e.name ≠ name := by
  simp [Index.find?]

theorem find?_insert {t : Table} (index : Index t) (e : Entry t) (name : String) :
    (index.insert e).find? name =
      (index.find? name).or (if e.name = name then some e else none) := by
  simp only [Index.insert, Index.find?, List.find?_append, List.find?_singleton, decide_eq_true_eq]

theorem find?_insert_of_ne {t : Table} (index : Index t) {e : Entry t} {name : String}
    (hn : e.name ≠ name) : (index.insert e).find? name = index.find? name := by
  simp [find?_insert, hn]

theorem find?_enter_self {c : Catalog} {h : Heading} {e : Entry h.table}
    (hn : (c.registry.index h).find? e.name = none) :
    ((c.enter h e).registry.index h).find? e.name = some e := by
  simp [Catalog.enter, find?_insert, hn]

theorem find?_eq_some {t : Table} {index : Index t} {name : String} {e : Entry t}
    (h : index.find? name = some e) : e ∈ index.entries ∧ e.name = name :=
  ⟨List.mem_of_find?_eq_some h, by simpa using List.find?_some h⟩

namespace Catalog

theorem find?_of_mem {c : Catalog} {h : Heading} {e : Entry h.table} (he : e ∈ c.entries h)
    (hn : ((c.entries h).map Entry.name).Nodup) : (c.registry.index h).find? e.name = some e := by
  cases hf : (c.registry.index h).find? e.name with
  | none => exact absurd rfl (find?_eq_none_iff.mp hf e he)
  | some e' =>
    obtain ⟨he', hname⟩ := find?_eq_some hf
    rw [List.inj_on_of_nodup_map hn he' he hname]

end Catalog

namespace Accounted

variable {c : Catalog} {o : Owner} {owners : List Owner}

theorem empty : Accounted {} [] where
  wellFormed := Catalog.empty_wellFormed
  files_nodup := by simp
  changes_nodup := by simp
  live_iff := by simp [Catalog.Live, Catalog.get?_empty]
  names_nodup := by simp [Catalog.entries_empty]
  ids_nodup := by simp [Catalog.entries_empty]
  inStep := Catalog.inStep_empty
  owner_of_entry := by simp [Catalog.entries_empty]
  entry_of_change := by simp

theorem perm (ha : Accounted c owners) {owners' : List Owner} (hp : owners.Perm owners') :
    Accounted c owners' where
  wellFormed := ha.wellFormed
  files_nodup := (hp.map _).nodup_iff.mp ha.files_nodup
  changes_nodup := (hp.flatMap_right _).nodup_iff.mp ha.changes_nodup
  live_iff id := by simp only [ha.live_iff, hp.mem_iff]
  names_nodup := ha.names_nodup
  ids_nodup := ha.ids_nodup
  inStep := ha.inStep
  owner_of_entry h e he := by simpa only [hp.mem_iff] using ha.owner_of_entry h e he
  entry_of_change o ho := ha.entry_of_change o (hp.mem_iff.mpr ho)

/-- The catalog matters only through its records and its entries. -/
theorem congr (ha : Accounted c owners) {c' : Catalog} (hs : c'.store = c.store)
    (hr : c'.registry = c.registry) : Accounted c' owners := by
  obtain ⟨store, registry, builds⟩ := c
  obtain ⟨store', registry', builds'⟩ := c'
  simp only at hs hr
  subst hs hr
  exact ⟨ha.wellFormed, ha.files_nodup, ha.changes_nodup, ha.live_iff, ha.names_nodup, ha.ids_nodup,
    ha.inStep, ha.owner_of_entry, ha.entry_of_change⟩

theorem live (ha : Accounted c owners) (ho : o ∈ owners) {t : Table} {id : Id t}
    (hid : Change.inserted t id ∈ o.journal) : c.Live id :=
  (ha.live_iff id).mpr ⟨o, ho, hid⟩

theorem live_entry (ha : Accounted c owners) {h : Heading} {e : Entry h.table}
    (he : e ∈ c.entries h) : c.Live e.id := by
  obtain ⟨o, ho, _, _, hid⟩ := ha.owner_of_entry h e he
  exact ha.live ho hid

/-- A change is in one journal only. -/
theorem owner_unique (ha : Accounted c (o :: owners)) {change : Change} (hc : change ∈ o.journal)
    {o' : Owner} (ho' : o' ∈ owners) : change ∉ o'.journal := by
  intro hc'
  have hd := (List.nodup_append.mp (by simpa using ha.changes_nodup)).2.2
  exact hd change hc change (List.mem_flatMap.mpr ⟨o', ho', hc'⟩) rfl

/-- Two owners with a change in common are one. -/
theorem owner_eq (ha : Accounted c owners) (ho : o ∈ owners) {o' : Owner} (ho' : o' ∈ owners)
    {change : Change} (hc : change ∈ o.journal) (hc' : change ∈ o'.journal) : o = o' := by
  obtain ⟨before, after, rfl⟩ := List.append_of_mem ho
  have hperm : (before ++ o :: after).Perm (o :: (before ++ after)) := List.perm_middle
  rcases List.mem_cons.mp (hperm.mem_iff.mp ho') with rfl | hother
  · rfl
  · exact absurd hc' ((ha.perm hperm).owner_unique hc hother)

theorem next_unlisted (ha : Accounted c owners) (t : Table) : c.Unlisted (c.next t) := by
  intro h e he
  have hdead : ¬ c.Live (c.next t) := by simp [Catalog.Live, Catalog.get?_next ha.wellFormed]
  generalize c.next t = id at hdead
  rintro ⟨⟩
  exact hdead (ha.live_entry he)

theorem next_fresh (ha : Accounted c owners) (t : Table) (ho : o ∈ owners) :
    Change.inserted t (c.next t) ∉ o.journal := by
  intro hc
  have hl := ha.live ho hc
  simp [Catalog.Live, Catalog.get?_next ha.wellFormed] at hl

theorem name_fresh (ha : Accounted c owners) {h : Heading} {name : String}
    (hn : (c.registry.index h).find? name = none) (ho : o ∈ owners) :
    Change.registered h name ∉ o.journal := by
  intro hc
  obtain ⟨e, he, hname, _⟩ := ha.entry_of_change o ho h name hc
  exact find?_eq_none_iff.mp hn e he hname

theorem note_nodup (ha : Accounted c (o :: owners)) {change : Change}
    (hc : ∀ o' ∈ o :: owners, change ∉ o'.journal) :
    ((o.note change :: owners).flatMap Owner.journal).Nodup := by
  have hn := ha.changes_nodup
  simp only [List.flatMap_cons, Owner.note, List.cons_append, List.nodup_cons] at hn ⊢
  refine ⟨?_, hn⟩
  simp only [List.mem_append, List.mem_flatMap, not_or, not_exists, not_and]
  exact ⟨hc o (by simp), fun o' ho' => hc o' (by simp [ho'])⟩

/-- What a build notes leaves each entry with its owner. -/
theorem owner_of_entry_note (ha : Accounted c (o :: owners)) (change : Change) :
    ∀ h, ∀ e ∈ c.entries h, ∃ o' ∈ o.note change :: owners, o'.file = e.file ∧
      Change.registered h e.name ∈ o'.journal ∧ Change.inserted h.table e.id ∈ o'.journal := by
  intro h e he
  obtain ⟨o', ho', hf, hr, hi⟩ := ha.owner_of_entry h e he
  rcases List.mem_cons.mp ho' with rfl | ho'
  · exact ⟨_, List.mem_cons_self, hf, by simp [Owner.note, hr], by simp [Owner.note, hi]⟩
  · exact ⟨o', by simp [ho'], hf, hr, hi⟩

theorem insert (ha : Accounted c (o :: owners)) {t : Table} (record : Record t) :
    Accounted (c.insert record) (o.note (.inserted t (c.next t)) :: owners) where
  wellFormed := Catalog.insert_wellFormed ha.wellFormed record
  files_nodup := ha.files_nodup
  changes_nodup := ha.note_nodup fun _ ho' => ha.next_fresh t ho'
  live_iff := by
    intro u id
    by_cases hid : Change.inserted u id = .inserted t (c.next t)
    · cases hid
      simp [Catalog.Live, Catalog.get?_insert_next ha.wellFormed, Owner.note]
    · have hlive := ha.live_iff id
      rw [Catalog.Live, Catalog.get?_insert_of_ne ha.wellFormed record hid, ← Catalog.Live, hlive]
      simp [Owner.note, hid]
  names_nodup := ha.names_nodup
  ids_nodup := ha.ids_nodup
  inStep := ha.inStep
  owner_of_entry := ha.owner_of_entry_note _
  entry_of_change := by
    intro o' ho' h name hc
    rcases List.mem_cons.mp ho' with rfl | ho'
    · exact ha.entry_of_change o (by simp) h name (by simpa [Owner.note] using hc)
    · exact ha.entry_of_change o' (by simp [ho']) h name hc

theorem modify (ha : Accounted c owners) {t : Table} (id : Id t) (f : Record t → Record t) :
    Accounted (c.modify id f) owners where
  wellFormed := Catalog.modify_wellFormed ha.wellFormed id f
  files_nodup := ha.files_nodup
  changes_nodup := ha.changes_nodup
  live_iff other := by rw [Catalog.live_modify_iff, ha.live_iff]
  names_nodup := ha.names_nodup
  ids_nodup := ha.ids_nodup
  inStep := ha.inStep
  owner_of_entry := ha.owner_of_entry
  entry_of_change := ha.entry_of_change

theorem enter (ha : Accounted c (o :: owners)) {h : Heading} {name : String} {id : Id h.table}
    (hn : (c.registry.index h).find? name = none) (hid : Change.inserted h.table id ∈ o.journal)
    (hnew : c.Unlisted id) :
    Accounted (c.enter h ⟨name, o.file, id⟩) (o.note (.registered h name) :: owners) where
  wellFormed := ha.wellFormed
  files_nodup := ha.files_nodup
  changes_nodup := ha.note_nodup fun _ ho' => ha.name_fresh hn ho'
  live_iff := by
    intro t other
    refine (ha.live_iff other).trans ?_
    simp [Owner.note]
  names_nodup := by
    intro k
    by_cases hk : h = k
    · subst hk
      rw [Catalog.entries_enter_self, List.map_append, List.map_singleton]
      apply (ha.names_nodup h).append (List.nodup_singleton _)
      simp only [List.disjoint_singleton, List.mem_map, not_exists, not_and]
      exact find?_eq_none_iff.mp hn
    · rw [Catalog.entries_enter_of_ne c _ hk]
      exact ha.names_nodup k
  ids_nodup := by
    intro k
    by_cases hk : h = k
    · subst hk
      exact Catalog.ids_nodup_enter (ha.ids_nodup h) hnew
    · rw [Catalog.entries_enter_of_ne c _ hk]
      exact ha.ids_nodup k
  inStep := ha.inStep.enter h _
  owner_of_entry := by
    have hold := ha.owner_of_entry_note (.registered h name)
    intro k e he
    by_cases hk : h = k
    · subst hk
      rw [Catalog.entries_enter_self] at he
      rcases List.mem_append.mp he with he | he
      · exact hold h e he
      · rw [List.mem_singleton.mp he]
        exact ⟨_, List.mem_cons_self, rfl, by simp [Owner.note], by simp [Owner.note, hid]⟩
    · rw [Catalog.entries_enter_of_ne c _ hk] at he
      exact hold k e he
  entry_of_change := by
    have hold : ∀ k, ∀ e ∈ c.entries k, e ∈ (c.enter h ⟨name, o.file, id⟩).entries k := by
      intro k e he
      by_cases hk : h = k
      · subst hk
        simp [Catalog.entries_enter_self, he]
      · rwa [Catalog.entries_enter_of_ne c _ hk]
    intro o' ho' k other hc
    rcases List.mem_cons.mp ho' with rfl | ho'
    · rcases List.mem_cons.mp hc with hc | hc
      · cases hc
        exact ⟨⟨name, o.file, id⟩, by simp [Catalog.entries_enter_self], rfl, rfl⟩
      · obtain ⟨e, he, hx⟩ := ha.entry_of_change o (by simp) k other hc
        exact ⟨e, hold k e he, hx⟩
    · obtain ⟨e, he, hx⟩ := ha.entry_of_change o' (by simp [ho']) k other hc
      exact ⟨e, hold k e he, hx⟩

theorem begin (ha : Accounted c owners) {file : String} (hf : file ∉ owners.map Owner.file) :
    Accounted c (⟨file, []⟩ :: owners) where
  wellFormed := ha.wellFormed
  files_nodup := by simpa using ⟨by simpa using hf, ha.files_nodup⟩
  changes_nodup := by simpa using ha.changes_nodup
  live_iff id := by simp [ha.live_iff]
  names_nodup := ha.names_nodup
  ids_nodup := ha.ids_nodup
  inStep := ha.inStep
  owner_of_entry h e he := by
    obtain ⟨o, ho, hx⟩ := ha.owner_of_entry h e he
    exact ⟨o, by simp [ho], hx⟩
  entry_of_change o ho h name hc := by
    rcases List.mem_cons.mp ho with rfl | ho
    · simp at hc
    · exact ha.entry_of_change o ho h name hc

/-- What is left when an owner's journal is taken back belongs to the others. -/
theorem rollback (ha : Accounted c (o :: owners)) : Accounted (c.rollback o.journal) owners where
  wellFormed := Catalog.rollback_wellFormed ha.wellFormed _
  files_nodup := (List.nodup_cons.mp ha.files_nodup).2
  changes_nodup := (List.nodup_append.mp (by simpa using ha.changes_nodup)).2.1
  live_iff := by
    intro t id
    have hl := ha.live_iff id
    by_cases hid : Change.inserted t id ∈ o.journal
    · simp only [Catalog.Live, Catalog.get?_rollback, hid, if_true]
      simp only [Option.isSome_none, Bool.false_eq_true, false_iff, not_exists, not_and]
      exact fun o' ho' => ha.owner_unique hid ho'
    · simp only [Catalog.Live, Catalog.get?_rollback, hid, if_false]
      simpa [Catalog.Live, hid] using hl
  names_nodup h := by
    rw [Catalog.entries_rollback]
    exact (ha.names_nodup h).sublist (List.filter_sublist.map _)
  ids_nodup h := by
    rw [Catalog.entries_rollback]
    exact (ha.ids_nodup h).sublist (List.filter_sublist.map _)
  inStep := ha.inStep.rollback ha.names_nodup ha.ids_nodup o.journal
  owner_of_entry := by
    intro h e he
    rw [Catalog.entries_rollback] at he
    obtain ⟨he, hnot⟩ := List.mem_filter.mp he
    obtain ⟨o', ho', hf, hr, hi⟩ := ha.owner_of_entry h e he
    rcases List.mem_cons.mp ho' with rfl | ho'
    · simp [hr] at hnot
    · exact ⟨o', ho', hf, hr, hi⟩
  entry_of_change := by
    intro o' ho' h name hc
    obtain ⟨e, he, hn, hf⟩ := ha.entry_of_change o' (by simp [ho']) h name hc
    refine ⟨e, ?_, hn, hf⟩
    rw [Catalog.entries_rollback]
    refine List.mem_filter.mpr ⟨he, ?_⟩
    have hnot : Change.registered h e.name ∉ o.journal := fun hj =>
      ha.owner_unique hj ho' (hn ▸ hc)
    simpa using hnot

end Accounted

end InterfaceCatalog
