import InterfaceCatalog.Proofs.Build.Growth
import InterfaceCatalog.Proofs.Database.Reachable

namespace InterfaceCatalog

/-- Nothing in a catalog comes from a file: it is not parsed, no entry names it, and every live
record was made by the build of another file. -/
structure Catalog.Without (c : Catalog) (file : String) : Prop where
  unparsed : file ∉ c.parsed
  entries : ∀ h, ∀ e ∈ c.entries h, e.file ≠ file
  records : ∀ {t : Table} (id : Id t), c.Live id → ∃ b ∈ c.builds, b.file ≠ file ∧
    Change.inserted t id ∈ b.journal

theorem Catalog.without_of_unparsed {c : Catalog} (hs : Database.Settled c) {file : String}
    (hf : file ∉ c.parsed) : c.Without file := by
  have other : ∀ o ∈ c.owners ([] ++ []), ∃ b ∈ c.builds, b.owner = o ∧ b.file ≠ file := by
    intro o ho
    obtain ⟨b, hb, rfl⟩ := List.mem_map.mp (by simpa [owners] using ho)
    exact ⟨b, hb, rfl, fun he => hf (he ▸ List.mem_map_of_mem hb)⟩
  refine ⟨hf, fun h e he => ?_, fun id hl => ?_⟩
  · obtain ⟨o, ho, hfile, -⟩ := Accounted.owner_of_entry hs h e he
    obtain ⟨b, -, rfl, hb⟩ := other o ho
    exact fun he => hb (hfile.trans he)
  · obtain ⟨o, ho, hid⟩ := (Accounted.live_iff hs id).mp hl
    obtain ⟨b, hb, rfl, hne⟩ := other o ho
    exact ⟨b, hb, hne, hid⟩

/-- A load that fails within other builds leaves what they have made as it was. -/
theorem Sources.grownBy_of_error {src : Sources} {frames : List Frame} {name : String}
    {c c' : Catalog} {e : LoadError} (hs : (⟨c, []⟩ : Progress).Sound frames)
    (h : src.parseFile (frames.map Frame.file) name c = .error e c') :
    (⟨c', []⟩ : Progress).Sound frames ∧ (∃ new, c.GrownBy new c') ∧ name ∉ c'.parsed := by
  have hout := src.parseFile_outcome frames name c hs
  rw [h] at hout
  obtain ⟨hmoves, -, -, -, -, hparsed⟩ := hout
  have hs' := Moves.sound hmoves hs
  exact ⟨hs', (Moves.extends hmoves hs).grownBy hs hs', hparsed⟩

namespace Database

/-- Failed loads are atomic. Afterwards the catalog is the old one, with what other files
brought that were completed on the way, and holds nothing of the file itself; without such
files it is as it was. The files that are being loaded are an argument of `parseFile`, so that
there are none again. -/
theorem load_atomic {db db' : Database} (hdb : db.Reachable) {disk : Disk} {name : String}
    {e : LoadError} (h : db.load disk name = (some e, db')) :
    (∃ new, db.catalog.GrownBy new db'.catalog) ∧ db'.catalog.Without name ∧
      (db'.catalog.builds = db.catalog.builds →
        (∀ {t : Table} (id : Id t), db'.catalog.get? id = db.catalog.get? id) ∧
          db'.catalog.registry = db.catalog.registry) ∧
      db'.files = db.files ∧ db'.settings = db.settings := by
  unfold load at h
  cases hr : (db.sources disk).parseFile [] name db.catalog with
  | ok u c =>
    rw [hr] at h
    simp at h
  | error e' c =>
    rw [hr] at h
    cases h
    obtain ⟨hs, ⟨new, hgrown⟩, hparsed⟩ := Sources.grownBy_of_error hdb.settled hr
    refine ⟨⟨new, hgrown⟩, Catalog.without_of_unparsed hs hparsed, fun hb => ?_, rfl, rfl⟩
    have hnil : new = [] := List.append_right_eq_self.mp (hgrown.builds.symm.trans hb)
    subst hnil
    exact hgrown.eq_of_nil

/-- The second file of a cycle stays when the first one fails. -/
theorem load_atomic_cyclic :
    (cyclicDatabase.load cyclicDisk "a.eo").1 = some (.emptyProperty "A" "p") ∧
      (cyclicDatabase.load cyclicDisk "a.eo").2.catalog.parsed = ["b.eo"] ∧
      (∃ new,
        cyclicDatabase.catalog.GrownBy new (cyclicDatabase.load cyclicDisk "a.eo").2.catalog) ∧
      (cyclicDatabase.load cyclicDisk "a.eo").2.catalog.Without "a.eo" := by
  have herror : (cyclicDatabase.load cyclicDisk "a.eo").1 = some (.emptyProperty "A" "p") := by
    decide +kernel
  have hatomic := load_atomic cyclicDatabase_reachable (Prod.ext herror rfl)
  exact ⟨herror, by decide +kernel, hatomic.1, hatomic.2.1⟩

end Database

end InterfaceCatalog
