import InterfaceCatalog.Proofs.Database.Reproduction
import InterfaceCatalog.Proofs.Query.Inheritance

namespace InterfaceCatalog

namespace Catalog

variable {c : Catalog}

/-- What a heading lists is what its names find. It lists nothing twice, and nothing of other files
than the parsed ones. -/
structure ListsNamed (c : Catalog) (h : Heading) : Prop where
  found : ∀ v, v ∈ c.listAll h none ↔ c.findNamed? h none (h.fullName v.record) = some v
  once : ((c.listAll h none).map View.id).Nodup
  parsed : ∀ v ∈ c.listAll h none, h.file v.record ∈ c.parsed

/-- What the scope of a file answers under a heading is what the file declares, out of
all that there is. -/
structure Filters (c : Catalog) (h : Heading) (file : String) : Prop where
  listed : c.listAll h (some file) = (c.listAll h none).filter fun v => h.file v.record = file
  within : c.listFile h (some file) file = c.listAll h (some file)
  overall : c.listFile h none file = c.listAll h (some file)
  elsewhere : ∀ other, other ≠ file → c.listFile h (some file) other = []
  named : ∀ name v, c.findNamed? h (some file) name = some v ↔
    c.findNamed? h none name = some v ∧ h.file v.record = file

section

variable (hs : Database.Settled c) (hn : c.Named) {h : Heading}

include hs hn

theorem mem_listAll_iff {v : View h.table} :
    v ∈ c.listAll h none ↔ c.view? v.id = some v ∧ entryOf h v ∈ c.entries h := by
  rw [(Accounted.inStep hs).listAll, mem_views, and_comm]
  refine and_congr_right fun hv => ⟨fun hid => ?_, fun he => List.mem_map.mpr ⟨_, he, rfl⟩⟩
  obtain ⟨e, he, hid⟩ := List.mem_map.mp hid
  obtain ⟨w, hw, rfl⟩ := hn.view_of_entry he
  rw [hid, hv] at hw
  cases hw
  exact he

/-- A name is found in a scope exactly if the scope has what bears it. -/
theorem findNamed?_iff {scope : Option String} {name : String} {v : View h.table} :
    c.findNamed? h scope name = some v ↔
      v ∈ c.listAll h none ∧ h.fullName v.record = name ∧ ∀ file ∈ scope,
        h.file v.record = file := by
  rw [mem_listAll_iff hs hn]
  unfold findNamed?
  constructor
  · intro hv
    split at hv
    next => cases hv
    next e hfind =>
      obtain ⟨he, rfl⟩ := find?_eq_some hfind
      obtain ⟨w, hw, rfl⟩ := hn.view_of_entry he
      split at hv
      next hscope =>
        cases hw.symm.trans hv
        refine ⟨⟨hv, he⟩, rfl, fun file hfile => ?_⟩
        rw [Option.mem_def.mp hfile, Option.all_some] at hscope
        exact (of_decide_eq_true hscope).symm
      next => cases hv
  · rintro ⟨⟨hv, he⟩, rfl, hscope⟩
    have hfind := find?_of_mem he (Accounted.names_nodup hs h)
    have hall : scope.all (· = (entryOf h v).file) = true := by
      cases scope with
      | none => rfl
      | some file => exact decide_eq_true (hscope file rfl).symm
    change (c.registry.index h).find? (h.fullName v.record) = _ at hfind
    simp only [hfind, if_pos hall]
    exact hv

theorem listsNamed (h : Heading) : c.ListsNamed h where
  found v := by
    rw [findNamed?_iff hs hn]
    simp
  once := by
    have hids := Accounted.ids_nodup hs h
    rw [← hn.map_entryOf_views (List.Subset.refl _), List.map_map] at hids
    rw [(Accounted.inStep hs).listAll]
    exact hids
  parsed v hv := by
    obtain ⟨b, hb, hfile, -⟩ := build_of_entry hs ((mem_listAll_iff hs hn).mp hv).2
    exact List.mem_map.mpr ⟨b, hb, hfile⟩

theorem filters (h : Heading) (file : String) : c.Filters h file where
  listed := by
    rw [(Accounted.inStep hs).listAll_file, (Accounted.inStep hs).listAll]
    exact hn.views_filter (List.Subset.refl _) file
  within := listFile_of_scope h (by simp)
  overall := listFile_of_scope h (by simp)
  elsewhere other hne := listFile_of_ne h hne
  named name v := by
    rw [findNamed?_iff hs hn, findNamed?_iff hs hn]
    simp [and_assoc]

end

end Catalog

namespace Database

variable {db : Database}

/-- The unit of a file lists a class only if the file is parsed, and then the one that
the file declares. -/
theorem Reachable.length_classes_le_one (h : db.Reachable) (file : String) :
    (db.catalog.listAll .classes (some file)).length ≤ 1 := by
  by_cases hparsed : file ∈ db.catalog.parsed
  · obtain ⟨b, hb, rfl⟩ := List.mem_map.mp hparsed
    have hbuilt : db.catalog.HasBuilt b.file b.source := ⟨b, hb, rfl, rfl⟩
    obtain ⟨-, hreproduces⟩ := h.reproduces_between h.leads .refl .refl hbuilt
    rw [← hreproduces.classes.length_eq, List.length_map]
    cases b.source.declaredClass <;> simp
  · have hnone : db.catalog.listAll .classes (some file) = [] := by
      rw [(Catalog.filters h.settled h.told.named .classes file).listed]
      refine List.filter_eq_nil_iff.mpr fun v hv hfile => hparsed ?_
      exact of_decide_eq_true hfile ▸
        (Catalog.listsNamed h.settled h.told.named .classes).parsed v hv
    simp [hnone]

/-- Units are exact filters. Everything that is listed is found by its name, once, and belongs to a
parsed file; the unit of a parsed file gives the part that belongs to it, whichever way it is asked;
and the class of a file is all that is listed for it. -/
theorem Reachable.units_filter (h : db.Reachable) :
    (∀ k, db.catalog.ListsNamed k) ∧
      (∀ file ∈ db.catalog.parsed,
        db.catalog.unit? file = some (some file) ∧ ∀ k, db.catalog.Filters k file) ∧
      ∀ scope file,
        (db.catalog.classOfFile? scope file).toList = db.catalog.listFile .classes scope file := by
  refine ⟨Catalog.listsNamed h.settled h.told.named, fun file hfile => ⟨?_, fun k =>
    Catalog.filters h.settled h.told.named k file⟩, fun scope file => ?_⟩
  · simpa [Catalog.unit?, Catalog.isParsed] using hfile
  · have hlength : (db.catalog.listFile .classes scope file).length ≤ 1 := by
      unfold Catalog.listFile
      split
      · exact h.length_classes_le_one file
      · simp
    rw [Catalog.classOfFile?, ← List.take_one, List.take_of_length_le hlength]

/-- The first file declares a class as well as the second one. It fails, and its class is taken out
from before that of the second one. -/
theorem units_filter_halfCycle :
    halfCycle.Reachable ∧ halfCycle.catalog.parsed = ["b.eo"] ∧
      halfCycle.catalog.unit? "a.eo" = none ∧
      (∀ k, halfCycle.catalog.ListsNamed k ∧ halfCycle.catalog.Filters k "b.eo") ∧
      (halfCycle.catalog.listAll .classes none).map (·.record.fullName) = ["B"] := by
  have hreachable := cyclicDatabase_reachable.parse cyclicDisk "a.eo"
  have hparsed : halfCycle.catalog.parsed = ["b.eo"] := by decide +kernel
  obtain ⟨hnamed, hunits, -⟩ := Reachable.units_filter hreachable
  obtain ⟨-, hfilters⟩ := hunits "b.eo" (hparsed ▸ List.mem_singleton_self _)
  exact ⟨hreachable, hparsed, by decide +kernel, fun k => ⟨hnamed k, hfilters k⟩, by decide +kernel⟩

end Database

end InterfaceCatalog
