import InterfaceCatalog.Proofs.Build.Standing
import InterfaceCatalog.Proofs.Database.Reachable

namespace InterfaceCatalog

/-- A file that was being built around a parsed one failed afterwards. -/
def Catalog.Forsaken (c : Catalog) (b : Build) : Prop :=
  ∃ file ∈ b.outer, ∀ b' ∈ c.builds, b'.file = file → b.file ∉ b'.inner

/-- A parsed file has its imports, every record that its own records refer to, and the
parents of its class. -/
structure Catalog.IsComplete (c : Catalog) (b : Build) : Prop where
  imports_length : b.imports.length = b.source.imports.length
  imports : ∀ file ∈ b.imports, file ∈ c.parsed
  references : ∀ {t : Table} (id : Id t) (r : Record t), Change.inserted t id ∈ b.journal →
    c.get? id = some r → ∀ ref ∈ references t r, c.Live ref.id
  parents : ∀ source ∈ b.source.declaredClass, ∃ e r,
    c.registry.classes.find? source.name = some e ∧
    e.file = b.file ∧ c.get? e.id = some r ∧ (c.inherits r).length = source.inherits.length

/-- What a parsed file can at most lack: imports that were being built around it and failed, and the
classes, declared types and functions that these had stored. -/
structure Catalog.IsUsable (c : Catalog) (failed : List Build) (b : Build) : Prop where
  imports_length : b.imports.length = b.source.imports.length
  imports : ∀ file ∈ b.imports, file ∈ c.parsed ∨ ∃ o ∈ failed, o.IsAround b ∧ o.file = file
  references : ∀ {t : Table} (id : Id t) (r : Record t), Change.inserted t id ∈ b.journal →
    c.get? id = some r → ∀ ref ∈ references t r, c.Live ref.id ∨
      ref.table.IsShared ∧ ∃ o ∈ failed, o.IsAround b ∧ Change.inserted ref.table ref.id ∈ o.journal

namespace Catalog

variable {c : Catalog} {failed : List Build} {b : Build}

theorem forsaken_iff : Progress.Forsaken ⟨c, []⟩ b ↔ c.Forsaken b := by
  simp [Progress.Forsaken, Progress.Surrounds, Forsaken]

theorem length_views {t : Table} {ids : List (Id t)} (h : ∀ id ∈ ids, c.Live id) :
    (c.views ids).length = ids.length := by
  induction ids with
  | nil => rfl
  | cons id ids ih =>
    obtain ⟨r, hr⟩ := exists_of_live (h id (by simp))
    have hview : c.view? id = some ⟨id, r⟩ := view?_of_get? hr
    have hrest := ih fun i hi => h i (by simp [hi])
    simpa [views, List.filterMap_cons_some hview] using hrest

theorem live_of_build (hs : Database.Settled c) (hb : b ∈ c.builds) {t : Table} {id : Id t}
    (hid : Change.inserted t id ∈ b.journal) : c.Live id :=
  Accounted.live hs (o := b.owner) (by simpa [owners] using List.mem_map_of_mem hb) hid

/-- Each handle that a parsed file holds finds its record, or belonged to a build that
failed around it. -/
theorem live_or_lost (hs : Database.Settled c) (hb : b ∈ c.builds) {ref : Reference}
    (hm : b.MayHold ⟨c, []⟩ failed ref) : c.Live ref.id ∨
      ref.table.IsShared ∧
        ∃ o ∈ failed, o.IsAround b ∧ Change.inserted ref.table ref.id ∈ o.journal := by
  rcases hm with hid | ⟨hshared, hlost | ⟨b', hb', hid⟩ | ⟨fr, hfr, -⟩⟩
  · exact .inl (live_of_build hs hb hid)
  · exact .inr ⟨hshared, hlost⟩
  · exact .inl (live_of_build hs hb' hid)
  · simp at hfr

variable (hs : Database.Settled c) (hl : Progress.Linked ⟨c, []⟩ failed) (hb : b ∈ c.builds)

include hl hb

theorem forsaken_iff_failed : c.Forsaken b ↔ ∃ o ∈ failed, o.IsAround b :=
  forsaken_iff.symm.trans (hl.forsaken_iff hb)

include hs

theorem isUsable (hstands : b.Stands c) : c.IsUsable failed b := by
  refine ⟨hstands.imports_length, fun file hfile => ?_, fun id r hid hr ref hmem =>
    live_or_lost hs hb (hl.held b hb id r hid hr ref hmem)⟩
  refine (hstands.imported file hfile).elim .inl fun houter => ?_
  rcases hl.around b hb file houter with (⟨fr, hfr, -⟩ | ⟨b', hb', hf, -⟩) | ⟨o, ho, hf, hin⟩
  · simp at hfr
  · exact .inl (hf ▸ List.mem_map_of_mem hb')
  · exact .inr ⟨o, ho, ⟨hf ▸ houter, hin⟩, hf⟩

theorem isComplete_of_not_forsaken (hstands : b.Stands c) (hf : ¬ c.Forsaken b) :
    c.IsComplete b := by
  have hnone : ∀ o ∈ failed, ¬ o.IsAround b := fun o ho hout =>
    hf ((forsaken_iff_failed hl hb).mpr ⟨o, ho, hout⟩)
  have husable := isUsable hs hl hb hstands
  have href : ∀ {t : Table} (id : Id t) (r : Record t), Change.inserted t id ∈ b.journal →
      c.get? id = some r → ∀ ref ∈ InterfaceCatalog.references t r, c.Live ref.id := by
    intro t id r hid hr ref hmem
    exact (husable.references id r hid hr ref hmem).resolve_right fun ⟨_, o, ho, hout, _⟩ =>
      hnone o ho hout
  refine ⟨hstands.imports_length, fun file hfile => ?_, href, fun source hsource => ?_⟩
  · exact (husable.imports file hfile).resolve_right fun ⟨o, ho, hout, _⟩ => hnone o ho hout
  · obtain ⟨e, r, he, hname, hfile, hid, hr, -, hlength⟩ := hstands.parents source hsource
    have hfind := find?_of_mem he (Accounted.names_nodup hs .classes)
    rw [hname] at hfind
    refine ⟨e, r, hfind, hfile, hr, ?_⟩
    have hlive : ∀ id ∈ r.inherits, c.Live id := fun id hmem =>
      href e.id r hid hr ⟨_, id⟩ (by simp [InterfaceCatalog.references, Reference.ofList, hmem])
    exact (length_views hlive).trans hlength

end Catalog

namespace Database

theorem linked_empty : Progress.Linked ⟨{}, []⟩ [] :=
  ⟨by simp, trivial, by simp, by simp, by simp, by simp⟩

theorem Reachable.exists_course {db : Database} (h : db.Reachable) :
    ∃ failed, Course ⟨{}, []⟩ failed ⟨db.catalog, []⟩ :=
  Moves.exists_course h.leads

theorem Reachable.stands {db : Database} (h : db.Reachable) :
    ∀ b ∈ db.catalog.builds, b.Stands db.catalog :=
  Moves.stands h.leads settled_empty (by simp)

/-- What a load adds that succeeds is not forsaken. -/
theorem Reachable.not_forsaken_of_load {db db' : Database} (hdb : db.Reachable) {disk : Disk}
    {name : String} (h : db.load disk name = (none, db')) {b : Build}
    (hb : b ∈ db'.catalog.builds) : b ∈ db.catalog.builds ∨ ¬ db'.catalog.Forsaken b := by
  have hout := (db.sources disk).parseFile_outcome [] name db.catalog hdb.settled
  rw [List.map_nil] at hout
  unfold load at h
  cases hr : (db.sources disk).parseFile [] name db.catalog with
  | error e c =>
    rw [hr] at h
    simp at h
  | ok u c =>
    rw [hr] at h hout
    cases h
    refine (Steps.surrounds_new hout.1 (by simp) hb).imp_right fun hall hf => ?_
    obtain ⟨file, hfile, hnot⟩ := Catalog.forsaken_iff.mpr hf
    exact hnot (hall file hfile)

/-- Parsed files are complete, except those that a failed file had loaded before it failed. These
may lack imports that failed around them, and the classes, declared types and functions that such a
file took with it, and nothing else. -/
theorem Reachable.integrity {db : Database} (h : db.Reachable) :
    (∀ {t : Table} (id : Id t), db.catalog.Live id → ∃ b ∈ db.catalog.builds,
      Change.inserted t id ∈ b.journal) ∧
    (∀ b ∈ db.catalog.builds, ¬ db.catalog.Forsaken b → db.catalog.IsComplete b) ∧
    (∃ failed, Course ⟨{}, []⟩ failed ⟨db.catalog, []⟩) ∧
    (∀ failed, Course ⟨{}, []⟩ failed ⟨db.catalog, []⟩ → ∀ b ∈ db.catalog.builds,
      (db.catalog.Forsaken b ↔ ∃ o ∈ failed, o.IsAround b) ∧ db.catalog.IsUsable failed b) ∧
    ∀ disk name db', db.load disk name = (none, db') → ∀ b ∈ db'.catalog.builds,
      b ∈ db.catalog.builds ∨ ¬ db'.catalog.Forsaken b := by
  have hlinked {failed : List Build} (hc : Course ⟨{}, []⟩ failed ⟨db.catalog, []⟩) :
      Progress.Linked ⟨db.catalog, []⟩ failed := hc.linked settled_empty linked_empty
  refine ⟨fun id hl => ?_, fun b hb => ?_, h.exists_course, fun failed hc b hb => ⟨?_, ?_⟩,
    fun disk name db' hload b hb => h.not_forsaken_of_load hload hb⟩
  · obtain ⟨o, ho, hid⟩ := (Accounted.live_iff h.settled id).mp hl
    obtain ⟨b, hb, rfl⟩ := List.mem_map.mp (by simpa [Catalog.owners] using ho)
    exact ⟨b, hb, hid⟩
  · obtain ⟨failed, hc⟩ := h.exists_course
    exact Catalog.isComplete_of_not_forsaken h.settled (hlinked hc) hb (h.stands b hb)
  · exact Catalog.forsaken_iff_failed (hlinked hc) hb
  · exact Catalog.isUsable h.settled (hlinked hc) hb (h.stands b hb)

def halfCycle : Database :=
  (cyclicDatabase.parse cyclicDisk "a.eo").2

/-- The second file stays parsed. Its import is not, and the class that its own class
inherits is gone. -/
theorem halfCycle_incomplete :
    halfCycle.Reachable ∧
      (∃ b ∈ halfCycle.catalog.builds, b.file = "b.eo" ∧
        ∃ file ∈ b.imports, file ∉ halfCycle.catalog.parsed) ∧
      ((halfCycle.catalog.registry.classes.find? "B").bind fun e => halfCycle.catalog.get? e.id).map
        (fun r => (r.inherits.length, (halfCycle.catalog.inherits r).length)) = some (1, 0) :=
  ⟨cyclicDatabase_reachable.parse _ _, by decide +kernel, by decide +kernel⟩

/-- What the second file lacks is no more than the first one took with it. -/
theorem integrity_halfCycle : halfCycle.Reachable ∧
    ∃ failed, Course ⟨{}, []⟩ failed ⟨halfCycle.catalog, []⟩ ∧
      ∀ b ∈ halfCycle.catalog.builds,
        (∃ o ∈ failed, o.file = "a.eo" ∧ o.IsAround b) ∧ halfCycle.catalog.IsUsable failed b := by
  have hreachable : halfCycle.Reachable := cyclicDatabase_reachable.parse cyclicDisk "a.eo"
  obtain ⟨-, -, ⟨failed, hcourse⟩, hlack, -⟩ := Reachable.integrity hreachable
  have houter : ∀ b ∈ halfCycle.catalog.builds, b.outer = ["a.eo"] ∧
      ∀ b' ∈ halfCycle.catalog.builds, b'.file ≠ "a.eo" := by decide +kernel
  refine ⟨hreachable, failed, hcourse, fun b hb => ?_⟩
  obtain ⟨hforsaken, husable⟩ := hlack failed hcourse b hb
  obtain ⟨hfile, hgone⟩ := houter b hb
  obtain ⟨o, ho, hout⟩ :=
    hforsaken.mp ⟨"a.eo", by simp [hfile], fun b' hb' hf => absurd hf (hgone b' hb')⟩
  have hname : o.file = "a.eo" := by simpa [hfile] using hout.1
  exact ⟨⟨o, ho, hname, hout⟩, husable⟩

end Database

end InterfaceCatalog
