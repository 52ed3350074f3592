import InterfaceCatalog.Proofs.Build.Progress

namespace InterfaceCatalog

structure Catalog.Extends (c c' : Catalog) : Prop where
  builds : c.builds <+: c'.builds
  kept : ∀ {t : Table} (id : Id t) (r : Record t), c.get? id = some r → c'.get? id = some r
  entries : ∀ h, c.entries h <+: c'.entries h

namespace Catalog.Extends

variable {c c' : Catalog}

theorem refl (c : Catalog) : c.Extends c :=
  ⟨List.prefix_rfl, fun _ _ h => h, fun _ => List.prefix_rfl⟩

theorem trans {c'' : Catalog} (h : c.Extends c') (h' : c'.Extends c'') : c.Extends c'' :=
  ⟨h.builds.trans h'.builds, fun id r hr => h'.kept id r (h.kept id r hr),
    fun k => (h.entries k).trans (h'.entries k)⟩

theorem enter (c : Catalog) (h : Heading) (e : Entry h.table) : c.Extends (c.enter h e) := by
  refine ⟨List.prefix_rfl, fun _ _ hr => hr, fun k => ?_⟩
  by_cases hk : h = k
  · subst hk
    rw [entries_enter_self]
    exact List.prefix_append _ _
  · exact (entries_enter_of_ne c e hk).symm ▸ List.prefix_rfl

theorem parsed_prefix (h : c.Extends c') : c.parsed <+: c'.parsed := by
  obtain ⟨new, hb⟩ := h.builds
  exact ⟨new.map Build.file, by rw [Catalog.parsed, Catalog.parsed, ← hb, List.map_append]⟩

theorem live (h : c.Extends c') {t : Table} {id : Id t} (hl : c.Live id) : c'.Live id := by
  obtain ⟨r, hr⟩ := exists_of_live hl
  exact live_of_get? (h.kept id r hr)

theorem find? (h : c.Extends c') {k : Heading} {name : String} {e : Entry k.table}
    (he : (c.registry.index k).find? name = some e) :
    (c'.registry.index k).find? name = some e := by
  obtain ⟨added, hadded⟩ := h.entries k
  unfold Index.find? at he ⊢
  change List.find? _ (c'.entries k) = some e
  rw [← hadded, List.find?_append]
  change List.find? _ (c.entries k) = some e at he
  rw [he, Option.some_or]

/-- The owners of the smaller catalog are among those of the larger one. -/
theorem owners_subset (h : c.Extends c') (base : List Frame) : c.owners base ⊆ c'.owners base := by
  obtain ⟨new, hb⟩ := h.builds
  intro o ho
  rw [Catalog.owners, ← hb, List.map_append, ← List.append_assoc]
  exact List.mem_append_left _ ho

end Catalog.Extends

section

variable {base : List Frame} {c₀ : Catalog} {p q : Progress}

/-- A change of a build that began later is none of those that were there before. -/
theorem foreign_change {c : Catalog} {fr : Frame} {rest : List Frame}
    (hs : Progress.Sound base ⟨c, fr :: rest⟩) (he : c₀.Extends c) {change : Change}
    (hc : change ∈ fr.journal) {o : Owner} (ho : o ∈ c₀.owners base) : change ∉ o.journal := by
  have ha : Accounted c (fr.owner :: c.owners (rest ++ base)) := hs
  apply ha.owner_unique hc
  have hmem := he.owners_subset base ho
  simp only [Catalog.owners, List.map_append, List.mem_append] at hmem ⊢
  exact hmem.elim (fun h => Or.inl (Or.inr h)) Or.inr

theorem foreign_record {c : Catalog} {fr : Frame} {rest : List Frame}
    (h₀ : Progress.Sound base ⟨c₀, []⟩) (hs : Progress.Sound base ⟨c, fr :: rest⟩)
    (he : c₀.Extends c) {t : Table} {id : Id t} (hid : Change.inserted t id ∈ fr.journal) :
    ¬ c₀.Live id := by
  intro hl
  obtain ⟨o, ho, hoid⟩ := (Accounted.live_iff h₀ id).mp hl
  exact foreign_change hs he hid ho hoid

theorem foreign_entry {c : Catalog} {fr : Frame} {rest : List Frame}
    (h₀ : Progress.Sound base ⟨c₀, []⟩) (hs : Progress.Sound base ⟨c, fr :: rest⟩)
    (he : c₀.Extends c) {h : Heading} {e : Entry h.table} (hm : e ∈ c₀.entries h) :
    Change.registered h e.name ∉ fr.journal := by
  intro hj
  obtain ⟨o, ho, _, hr, _⟩ := Accounted.owner_of_entry h₀ h e hm
  exact foreign_change hs he hj ho hr

theorem Step.extends (h : Step base p q) (h₀ : Progress.Sound base ⟨c₀, []⟩) (hp : p.Sound base)
    (he : c₀.Extends p.catalog) : c₀.Extends q.catalog := by
  cases h with
  | insert record backed =>
    refine ⟨he.builds, fun id r hr => ?_, he.entries⟩
    have hk := he.kept id r hr
    rwa [Catalog.get?_insert_of_live (Accounted.wellFormed hp) record (Catalog.live_of_get? hk)]
  | @modify c fr rest t id record f own found backed =>
    refine ⟨he.builds, fun other r hr => ?_, he.entries⟩
    rw [Catalog.get?_modify_of_ne]
    · exact he.kept other r hr
    · intro hid
      cases hid
      exact foreign_record h₀ hp he own (Catalog.live_of_get? hr)
  | register free own unlisted => exact he.trans (.enter _ _ _)
  | begin source imports unparsed idle => exact ⟨he.builds, he.kept, he.entries⟩
  | finish complete => exact ⟨he.builds.trans (List.prefix_append _ _), he.kept, he.entries⟩

theorem Move.extends (h : Move base p q) (h₀ : Progress.Sound base ⟨c₀, []⟩) (hp : p.Sound base)
    (he : c₀.Extends p.catalog) : c₀.Extends q.catalog := by
  cases h with
  | step h => exact h.extends h₀ hp he
  | @abandon c fr rest =>
    refine ⟨?_, fun id r hr => ?_, fun h => ?_⟩
    · rw [Catalog.builds_rollback]
      exact he.builds
    · have hout : Change.inserted _ id ∉ fr.journal := fun hid =>
        foreign_record h₀ hp he hid (Catalog.live_of_get? hr)
      rw [Catalog.get?_rollback, if_neg hout]
      exact he.kept id r hr
    · obtain ⟨added, hadded⟩ := he.entries h
      have hold : (c₀.entries h).filter (fun e => Change.registered h e.name ∉ fr.journal) =
          c₀.entries h := by
        apply List.filter_eq_self.mpr
        intro e hm
        simpa using foreign_entry h₀ hp he hm
      rw [Catalog.entries_rollback, ← hadded, List.filter_append, hold]
      exact List.prefix_append _ _

/-- Loading only extends the catalog, whether or not builds fail on the way. -/
theorem Moves.extends (h : Moves base ⟨c₀, []⟩ p) (h₀ : Progress.Sound base ⟨c₀, []⟩) :
    c₀.Extends p.catalog := by
  induction h with
  | refl => exact .refl c₀
  | tail hms hm ih => exact hm.extends h₀ (Moves.sound hms h₀) ih

end

end InterfaceCatalog
