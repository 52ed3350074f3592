import InterfaceCatalog.Proofs.Build.Links

namespace InterfaceCatalog

structure Build.Stands (b : Build) (c : Catalog) : Prop where
  imports_length : b.imports.length = b.source.imports.length
  imported : ∀ file ∈ b.imports, file ∈ c.parsed ∨ file ∈ b.outer
  parents : ∀ source ∈ b.source.declaredClass, ∃ e r, e ∈ c.entries .classes ∧
    e.name = source.name ∧
    e.file = b.file ∧ Change.inserted .classes e.id ∈ b.journal ∧ c.get? e.id = some r ∧
    r.fullName = source.name ∧ r.inherits.length = source.inherits.length
  declares : ∀ entry ∈ b.source.names, c.Declares b.owner entry.1 entry.2
  names : ∀ h name, Change.registered h name ∈ b.journal →
    Change.registered h name ∈ b.source.changes

section

variable {p q : Progress}

/-- The entries of parsed files stay. -/
theorem Move.mem_entries (h : Move [] p q) (hp : p.Sound []) {b : Build} (hb : b ∈ p.catalog.builds)
    {k : Heading} {e : Entry k.table} (he : e ∈ p.catalog.entries k)
    (hid : Change.inserted k.table e.id ∈ b.journal) : e ∈ q.catalog.entries k := by
  cases h with
  | step h =>
    cases h with
    | @register c fr rest h name id free own unlisted =>
      exact (Catalog.Extends.enter c h ⟨name, fr.file, id⟩).entries k |>.subset he
    | _ => exact he
  | @abandon c fr rest =>
    rw [Catalog.entries_rollback]
    refine List.mem_filter.mpr ⟨he, ?_⟩
    have ha : Accounted c (fr.owner :: c.owners rest) := by
      simpa [Progress.Sound, Catalog.owners] using hp
    have howner : b.owner ∈ c.owners rest := owner_mem_owners hb rest
    have hnot : Change.registered k e.name ∉ fr.journal := by
      intro hc
      obtain ⟨o, ho, -, hr, hi⟩ := ha.owner_of_entry k e he
      rcases List.mem_cons.mp ho with rfl | ho
      · exact ha.owner_unique hi howner hid
      · exact ha.owner_unique hc ho hr
    simpa using hnot

/-- What parsed files have entered stays entered. -/
theorem Move.entered (h : Move [] p q) (hp : p.Sound []) {b : Build} (hb : b ∈ p.catalog.builds)
    {k : Heading} {name : String} {role : Role} {id : Id k.table}
    (he : p.catalog.Entered b.owner k name role id) : q.catalog.Entered b.owner k name role id where
  found := by
    obtain ⟨hmem, -⟩ := find?_eq_some he.found
    exact Catalog.find?_of_mem (h.mem_entries hp hb hmem he.inserted)
      (Accounted.names_nodup (h.sound hp) k)
  registered := he.registered
  inserted := he.inserted
  labelled := by
    rw [Catalog.label?, h.get?_of_owned hp (owner_mem_owners hb _) he.inserted]
    exact he.labelled

theorem Build.Stands.move {b : Build} (hs : b.Stands p.catalog) (h : Move [] p q) (hp : p.Sound [])
    (hb : b ∈ p.catalog.builds) : b.Stands q.catalog where
  imports_length := hs.imports_length
  imported file hfile :=
    (hs.imported file hfile).imp_left fun hf => List.map_subset _ h.builds_subset hf
  parents source hsource := by
    obtain ⟨e, r, he, hname, hfile, hid, hr, hrest⟩ := hs.parents source hsource
    exact ⟨e, r, h.mem_entries hp hb he hid, hname, hfile, hid,
      (h.get?_of_owned hp (owner_mem_owners hb _) hid).trans hr, hrest⟩
  declares entry hentry := by
    obtain ⟨id, kind, target, id', hkind, htarget, he, he'⟩ := hs.declares entry hentry
    exact ⟨id, kind, target, id', hkind, htarget, h.entered hp hb he, h.entered hp hb he'⟩
  names := hs.names

theorem Catalog.Entered.conclude {c : Catalog} {o : Owner} {h : Heading} {name : String}
    {role : Role} {id : Id h.table} (he : c.Entered o h name role id) (b : Build) :
    (c.conclude b).Entered o h name role id :=
  ⟨he.found, he.registered, he.inserted, he.labelled⟩

theorem stands_of_complete {c : Catalog} {fr : Frame} {around : List Frame}
    (h : fr.Complete c around) : (fr.build c around).Stands (c.conclude (fr.build c around)) where
  imports_length := h.imports_length
  imported file hfile := by
    rcases h.imported file hfile with hf | rfl | hf
    · exact .inl (List.map_subset _ (List.subset_append_left _ _) hf)
    · exact .inl (List.mem_map_of_mem (List.mem_append_right _ (List.mem_singleton_self _)))
    · exact .inr hf
  parents source hsource := by
    obtain ⟨e, r, he, hfile, hid, hr, hrest⟩ := h.parents source hsource
    obtain ⟨hmem, hname⟩ := find?_eq_some he
    exact ⟨e, r, hmem, hname, hfile, hid, hr, hrest⟩
  declares entry hentry := by
    obtain ⟨id, kind, target, id', hkind, htarget, he, he'⟩ := h.declares entry hentry
    exact ⟨id, kind, target, id', hkind, htarget, he.conclude _, he'.conclude _⟩
  names := h.names

theorem Move.stands (h : Move [] p q) (hp : p.Sound [])
    (hs : ∀ b ∈ p.catalog.builds, b.Stands p.catalog) :
    ∀ b ∈ q.catalog.builds, b.Stands q.catalog := by
  have old : ∀ b ∈ p.catalog.builds, b.Stands q.catalog := fun b hb => (hs b hb).move h hp hb
  intro b hb
  cases h with
  | step h =>
    cases h with
    | @finish c fr rest complete =>
      rcases List.mem_append.mp hb with hb | hb
      · exact old b hb
      · cases List.mem_singleton.mp hb
        exact stands_of_complete complete
    | _ => exact old b hb
  | abandon =>
    rw [Catalog.builds_rollback] at hb
    exact old b hb

theorem Moves.stands (h : Moves [] p q) (hp : p.Sound [])
    (hs : ∀ b ∈ p.catalog.builds, b.Stands p.catalog) :
    ∀ b ∈ q.catalog.builds, b.Stands q.catalog := by
  induction h with
  | refl => exact hs
  | tail hms hm ih => exact hm.stands (Moves.sound hms hp) ih

end

end InterfaceCatalog
