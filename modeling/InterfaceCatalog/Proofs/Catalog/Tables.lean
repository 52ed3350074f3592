import InterfaceCatalog.Proofs.Catalog.Content

namespace InterfaceCatalog

namespace Index

variable {t : Table} {index index' : Index t}

structure InStep (index : Index t) : Prop where
  rows : ∀ file, index.rows file = (index.entries.filter fun e => e.file = file).map Entry.id
  order : index.order = index.entries.map Entry.id

theorem inStep_empty : ({} : Index t).InStep :=
  ⟨fun _ => rfl, rfl⟩

/-- The entries tell the other two tables. -/
theorem InStep.ext (h : index.InStep) (h' : index'.InStep) (he : index'.entries = index.entries) :
    index' = index := by
  obtain ⟨entries, rows, order⟩ := index
  obtain ⟨entries', rows', order'⟩ := index'
  obtain rfl : entries' = entries := he
  rw [mk.injEq]
  exact ⟨rfl, funext fun file => (h'.rows file).trans (h.rows file).symm,
    h'.order.trans h.order.symm⟩

theorem InStep.insert (h : index.InStep) (e : Entry t) : (index.insert e).InStep where
  rows file := by
    by_cases hf : file = e.file
    · subst hf
      simp [Index.insert, h.rows]
    · simp [Index.insert, h.rows, hf, Ne.symm hf]
  order := by simp [Index.insert, h.order]

theorem InStep.insertAll (h : index.InStep) (es : List (Entry t)) :
    (es.foldl Index.insert index).InStep := by
  induction es generalizing index with
  | nil => exact h
  | cons e es ih => exact ih (h.insert e)

theorem entries_insertAll (index : Index t) (es : List (Entry t)) :
    (es.foldl insert index).entries = index.entries ++ es := by
  induction es generalizing index with
  | nil => simp
  | cons e es ih => simp [ih, insert]

/-- An entry that is taken out by its name is found in the other tables by its handle. -/
theorem InStep.remove (h : index.InStep) (hnames : (index.entries.map Entry.name).Nodup)
    (hids : (index.entries.map Entry.id).Nodup) (name : String) : (index.remove name).InStep := by
  unfold Index.remove
  split
  next => exact h
  next e hfind =>
    have he : e ∈ index.entries := List.mem_of_find?_eq_some hfind
    obtain rfl : e.name = name := by simpa using List.find?_some hfind
    have hsame : ∀ e' ∈ index.entries, e'.id ≠ e.id ↔ e'.name ≠ e.name := fun e' he' =>
      not_congr ⟨fun hid => congrArg Entry.name (List.inj_on_of_nodup_map hids he' he hid),
        fun hname => congrArg Entry.id (List.inj_on_of_nodup_map hnames he' he hname)⟩
    have hout (es : List (Entry t)) (hes : es ⊆ index.entries) :
        (es.map Entry.id).filter (· ≠ e.id) =
          (es.filter fun e' => e'.name ≠ e.name).map Entry.id := by
      rw [List.filter_map]
      exact congrArg (List.map Entry.id)
        (List.filter_congr fun e' he' => decide_eq_decide.mpr (hsame e' (hes he')))
    refine ⟨fun file => ?_, ?_⟩
    · dsimp only
      rw [h.rows, List.filter_comm, ← hout _ (List.filter_subset_self _), ite_eq_left_iff]
      intro hf
      -- nothing of another file has the handle
      refine (List.filter_eq_self.mpr fun id hid => ?_).symm
      obtain ⟨e', he', rfl⟩ := List.mem_map.mp hid
      obtain ⟨hmem, hfile⟩ := List.mem_filter.mp he'
      have hne : e'.id ≠ e.id := fun heq => by
        obtain rfl : e' = e := List.inj_on_of_nodup_map hids hmem he heq
        exact hf (of_decide_eq_true hfile).symm
      simpa using hne
    · dsimp only
      rw [h.order, hout _ (List.Subset.refl _)]

end Index

namespace Catalog

variable {c : Catalog}

def InStep (c : Catalog) : Prop :=
  ∀ h, (c.registry.index h).InStep

/-- A record without an entry. -/
def Unlisted (c : Catalog) {t : Table} (id : Id t) : Prop :=
  ∀ h, ∀ e ∈ c.entries h, Change.inserted h.table e.id ≠ .inserted t id

theorem ids_nodup_enter {h : Heading} (hids : ((c.entries h).map Entry.id).Nodup)
    {e : Entry h.table} (hnew : c.Unlisted e.id) :
    (((c.enter h e).entries h).map Entry.id).Nodup := by
  rw [entries_enter_self, List.map_append, List.map_singleton]
  refine hids.append (List.nodup_singleton _) (List.disjoint_singleton.mpr fun hmem => ?_)
  obtain ⟨e', he', hid⟩ := List.mem_map.mp hmem
  exact hnew h e' he' (hid ▸ rfl)

theorem inStep_empty : ({} : Catalog).InStep := by
  intro h
  cases h <;> exact Index.inStep_empty

theorem InStep.setIndex (hs : c.InStep) {h : Heading} {index : Index h.table} (hi : index.InStep) :
    ({ c with registry := c.registry.setIndex h index } : Catalog).InStep := by
  intro k
  by_cases hk : h = k
  · subst hk
    rwa [Registry.index_setIndex_self]
  · rw [Registry.index_setIndex_of_ne _ _ hk]
    exact hs k

theorem InStep.enter (hs : c.InStep) (h : Heading) (e : Entry h.table) : (c.enter h e).InStep :=
  hs.setIndex ((hs h).insert e)

theorem InStep.rollback (hs : c.InStep) (hnames : ∀ h, ((c.entries h).map Entry.name).Nodup)
    (hids : ∀ h, ((c.entries h).map Entry.id).Nodup) (journal : List Change) :
    (c.rollback journal).InStep := by
  induction journal generalizing c with
  | nil => exact hs
  | cons change journal ih =>
    have hless (h : Heading) : ((change.undo c).entries h).Sublist (c.entries h) := by
      rw [Change.entries_undo]
      exact List.filter_sublist
    refine ih ?_ (fun h => (hnames h).sublist ((hless h).map _)) fun h =>
      (hids h).sublist ((hless h).map _)
    cases change with
    | inserted t id => exact hs
    | registered h name => exact hs.setIndex ((hs h).remove (hnames h) (hids h) name)

end Catalog

end InterfaceCatalog
