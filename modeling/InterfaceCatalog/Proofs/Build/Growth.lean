import InterfaceCatalog.Proofs.Build.Extension

namespace InterfaceCatalog

theorem Registry.eq_of_index {r r' : Registry} (h : ∀ k, r.index k = r'.index k) : r = r' := by
  obtain ⟨⟩ := r
  obtain ⟨⟩ := r'
  rw [Registry.mk.injEq]
  exact ⟨h .classes, h .structs, h .enums, h .aliases, h .constants, h .globals, h .declarations⟩

/-- A catalog that grew by some builds: everything else in it is as it was, in the same order. -/
structure Catalog.GrownBy (new : List Build) (c c' : Catalog) : Prop where
  builds : c'.builds = c.builds ++ new
  unparsed : ∀ b ∈ new, b.file ∉ c.parsed
  kept : ∀ {t : Table} (id : Id t) (r : Record t), c.get? id = some r → c'.get? id = some r
  live_iff : ∀ {t : Table} (id : Id t),
    c'.Live id ↔ c.Live id ∨ ∃ b ∈ new, Change.inserted t id ∈ b.journal
  made : ∀ b ∈ new, ∀ {t : Table} (id : Id t), Change.inserted t id ∈ b.journal → ¬ c.Live id
  entries : ∀ h, ∃ added : List (Entry h.table),
    c'.registry.index h = added.foldl Index.insert (c.registry.index h) ∧
    (∀ e ∈ added, ∃ b ∈ new, e.file = b.file ∧ Change.registered h e.name ∈ b.journal ∧
      Change.inserted h.table e.id ∈ b.journal) ∧
    ∀ b ∈ new, ∀ name, Change.registered h name ∈ b.journal → ∃ e ∈ added, e.name = name ∧
    e.file = b.file

namespace Catalog

variable {c c' : Catalog} {base : List Frame} {new : List Build}

theorem owners_append (hb : c'.builds = c.builds ++ new) (base : List Frame) :
    c'.owners base = c.owners base ++ new.map Build.owner := by
  simp [owners, hb]

/-- A build that was added has no change in common with those that were there before. -/
theorem change_not_old (hb : c'.builds = c.builds ++ new) (h' : Accounted c' (c'.owners base))
    {b : Build} (hn : b ∈ new) {change : Change} (hc : change ∈ b.journal) {o : Owner}
    (ho : o ∈ c.owners base) : change ∉ o.journal := by
  intro hold
  have hnodup := h'.changes_nodup
  rw [owners_append hb, List.flatMap_append] at hnodup
  have hdisjoint := (List.nodup_append.mp hnodup).2.2
  refine hdisjoint change (List.mem_flatMap.mpr ⟨o, ho, hold⟩) change ?_ rfl
  exact List.mem_flatMap.mpr ⟨b.owner, List.mem_map_of_mem hn, hc⟩

theorem file_not_old (hb : c'.builds = c.builds ++ new) (h' : Accounted c' (c'.owners base))
    {b : Build} (hn : b ∈ new) : b.file ∉ c.parsed := by
  intro hold
  have hnodup := h'.files_nodup
  rw [owners_append hb, List.map_append, files_owners] at hnodup
  have hdisjoint := (List.nodup_append.mp hnodup).2.2
  refine hdisjoint b.file (List.mem_append_right _ hold) b.file ?_ rfl
  exact List.mem_map.mpr ⟨b.owner, List.mem_map_of_mem hn, rfl⟩

theorem Extends.grownBy (he : c.Extends c') (h : Accounted c (c.owners base))
    (h' : Accounted c' (c'.owners base)) : ∃ new, GrownBy new c c' := by
  obtain ⟨new, hb⟩ := he.builds
  have hb := hb.symm
  have split : ∀ {o}, o ∈ c'.owners base → o ∈ c.owners base ∨ ∃ b ∈ new, b.owner = o := by
    intro o ho
    rw [owners_append hb, List.mem_append, List.mem_map] at ho
    exact ho
  have newOwner : ∀ {b}, b ∈ new → b.owner ∈ c'.owners base := by
    intro b hn
    rw [owners_append hb]
    exact List.mem_append_right _ (List.mem_map_of_mem hn)
  refine ⟨new, hb, fun b hn => file_not_old hb h' hn, he.kept, fun id => ⟨?_, ?_⟩, ?_, fun k => ?_⟩
  · intro hl
    obtain ⟨o, ho, hid⟩ := (h'.live_iff id).mp hl
    rcases split ho with ho | ⟨b, hn, rfl⟩
    · exact .inl (h.live ho hid)
    · exact .inr ⟨b, hn, hid⟩
  · rintro (hl | ⟨b, hn, hid⟩)
    · exact he.live hl
    · exact h'.live (newOwner hn) hid
  · intro b hn t id hid hl
    obtain ⟨o, ho, hold⟩ := (h.live_iff id).mp hl
    exact change_not_old hb h' hn hid ho hold
  · obtain ⟨added, hadded⟩ := he.entries k
    have hadded := hadded.symm
    refine ⟨added, ?_, ?_, ?_⟩
    · exact ((h.inStep k).insertAll added).ext (h'.inStep k)
        (hadded.trans (Index.entries_insertAll _ added).symm)
    · intro e hmem
      have hall : e ∈ c'.entries k := by rw [hadded]; exact List.mem_append_right _ hmem
      obtain ⟨o, ho, hf, hr, hi⟩ := h'.owner_of_entry k e hall
      rcases split ho with ho | ⟨b, hn, rfl⟩
      · obtain ⟨e', he', hname, -⟩ := h.entry_of_change o ho k e.name hr
        have hnodup := h'.names_nodup k
        rw [hadded, List.map_append] at hnodup
        have hdisjoint := (List.nodup_append.mp hnodup).2.2
        exact (hdisjoint _ (List.mem_map_of_mem he') _ (List.mem_map_of_mem hmem) hname).elim
      · exact ⟨b, hn, hf.symm, hr, hi⟩
    · intro b hn name hc
      obtain ⟨e, hall, hname, hfile⟩ := h'.entry_of_change b.owner (newOwner hn) k name hc
      rw [hadded] at hall
      rcases List.mem_append.mp hall with hold | hmem
      · obtain ⟨o, ho, -, hr, -⟩ := h.owner_of_entry k e hold
        exact (change_not_old hb h' hn hc ho (hname ▸ hr)).elim
      · exact ⟨e, hmem, hname, hfile⟩

/-- A catalog that grew by no build is as it was. -/
theorem GrownBy.eq_of_nil (hg : GrownBy [] c c') :
    (∀ {t : Table} (id : Id t), c'.get? id = c.get? id) ∧ c'.registry = c.registry := by
  refine ⟨fun id => ?_, ?_⟩
  · cases hr : c.get? id with
    | some r => exact hg.kept id r hr
    | none =>
      have hdead : ¬ c'.Live id := by
        rw [hg.live_iff]
        simp [Live, hr]
      simpa [Live] using hdead
  · have hindex : ∀ h, c'.registry.index h = c.registry.index h := by
      intro h
      obtain ⟨added, hentries, hfrom, -⟩ := hg.entries h
      have hnone : added = [] := by
        refine List.eq_nil_iff_forall_not_mem.mpr fun e hmem => ?_
        obtain ⟨b, hb, -⟩ := hfrom e hmem
        simp at hb
      rw [hentries, hnone, List.foldl_nil]
    exact Registry.eq_of_index hindex

end Catalog

end InterfaceCatalog
