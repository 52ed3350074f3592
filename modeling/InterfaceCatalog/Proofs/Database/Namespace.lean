import InterfaceCatalog.Proofs.Database.Integrity
import InterfaceCatalog.Proofs.Files.Table

namespace InterfaceCatalog

/-- An entry under the heading of a kind and the declaration of the same name agree. They name the
same file, which is parsed; the records that they stand for are live and carry the name and the
file; the first one is of the kind, and the second one leads to it. -/
structure Catalog.Agree (c : Catalog) (h : Heading) (e : Entry h.table) (e' : Entry .declarations) :
    Prop where
  file : e'.file = e.file
  parsed : e.file ∈ c.parsed
  record : c.label? e.id = some ⟨e.name, e.file, .listed h⟩
  declaration : ∃ kind target, h.declarationKind? = some kind ∧ h.target? e.id = some target ∧
    c.label? e'.id = some ⟨e.name, e.file, .declaration kind target⟩

namespace Catalog

variable {c : Catalog}

theorem build_of_entry (hs : Database.Settled c) {h : Heading} {e : Entry h.table}
    (he : e ∈ c.entries h) :
    ∃ b ∈ c.builds, b.file = e.file ∧ Change.registered h e.name ∈ b.journal := by
  obtain ⟨o, ho, hfile, hc, -⟩ := Accounted.owner_of_entry hs h e he
  obtain ⟨b, hb, rfl⟩ := List.mem_map.mp (by simpa [owners] using ho)
  exact ⟨b, hb, hfile, hc⟩

theorem build_unique (hs : Database.Settled c) {b b' : Build} (hb : b ∈ c.builds)
    (hb' : b' ∈ c.builds) (hf : b.file = b'.file) : b = b' := by
  have hnodup : c.parsed.Nodup := by simpa [files_owners] using Accounted.files_nodup hs
  exact List.inj_on_of_nodup_map hnodup hb hb' hf

theorem Declares.exists_entry {b : Build} {h : Heading} {name : String}
    (hd : c.Declares b.owner h name) : ∃ e ∈ c.entries h, e.name = name ∧ e.file = b.file := by
  obtain ⟨_, _, _, _, _, _, he, _⟩ := hd
  exact ⟨_, (find?_eq_some he.found).1, rfl, rfl⟩

theorem Declares.exists_declaration {b : Build} {h : Heading} {name : String}
    (hd : c.Declares b.owner h name) : ∃ e ∈ c.entries .declarations, e.name = name := by
  obtain ⟨_, _, _, _, _, _, _, he⟩ := hd
  exact ⟨_, (find?_eq_some he.found).1, rfl⟩

/-- The declaration of a name leads to a record of one kind only. -/
theorem Declares.heading_unique {o o' : Owner} {h h' : Heading} {name : String}
    (hd : c.Declares o h name) (hd' : c.Declares o' h' name) : h = h' := by
  obtain ⟨id, kind, target, decl, -, htarget, he, hdecl⟩ := hd
  obtain ⟨id', kind', target', decl', -, htarget', he', hdecl'⟩ := hd'
  have hentry := Option.some.inj (hdecl.found.symm.trans hdecl'.found)
  cases (Entry.mk.injEq .. ▸ hentry).2.2
  have hlabel := Option.some.inj (hdecl.labelled.symm.trans hdecl'.labelled)
  have htargets : target = target' := by
    simp only [Label.mk.injEq, Role.declaration.injEq] at hlabel
    exact hlabel.2.2.2
  have hrole : c.label? target.reference.id = some ⟨name, o.file, .listed h⟩ := by
    rw [Heading.reference_of_target? htarget]
    exact he.labelled
  have hrole' : c.label? target.reference.id = some ⟨name, o'.file, .listed h'⟩ := by
    rw [htargets, Heading.reference_of_target? htarget']
    exact he'.labelled
  have hroles := Option.some.inj (hrole.symm.trans hrole')
  simp only [Label.mk.injEq, Role.listed.injEq] at hroles
  exact hroles.2.2

section

variable (hs : Database.Settled c) (hstands : ∀ b ∈ c.builds, b.Stands c)

include hs hstands

theorem declares_of_entry {h : Heading} (hh : h ≠ .declarations) {e : Entry h.table}
    (he : e ∈ c.entries h) : ∃ b ∈ c.builds, b.file = e.file ∧ c.Declares b.owner h e.name := by
  obtain ⟨b, hb, hfile, hc⟩ := build_of_entry hs he
  have hname := (hstands b hb).names h e.name hc
  rw [FileSource.registered_mem_changes_iff hh] at hname
  exact ⟨b, hb, hfile, (hstands b hb).declares _ hname⟩

theorem declares_of_declaration {e : Entry .declarations} (he : e ∈ c.entries .declarations) :
    ∃ b ∈ c.builds, ∃ h, h ≠ .declarations ∧ c.Declares b.owner h e.name := by
  obtain ⟨b, hb, -, hc⟩ := build_of_entry hs (h := .declarations) he
  have hname := (hstands b hb).names .declarations e.name hc
  obtain ⟨h, hname⟩ := FileSource.declaration_mem_changes_iff.mp hname
  refine ⟨b, hb, h, ?_, (hstands b hb).declares _ hname⟩
  rintro rfl
  exact FileSource.declarations_not_mem_names hname

theorem declared_iff (name : String) :
    (∃ e ∈ c.entries .declarations, e.name = name) ↔
      ∃! h, h ≠ .declarations ∧ ∃ e ∈ c.entries h, e.name = name := by
  constructor
  · rintro ⟨e, he, rfl⟩
    obtain ⟨b, hb, h, hh, hd⟩ := declares_of_declaration hs hstands he
    obtain ⟨e', he', hname, -⟩ := hd.exists_entry
    refine ⟨h, ⟨hh, e', he', hname⟩, ?_⟩
    rintro k ⟨hk, e'', he'', hname''⟩
    obtain ⟨b'', -, -, hd''⟩ := declares_of_entry hs hstands hk he''
    exact (hname'' ▸ hd'').heading_unique hd
  · rintro ⟨h, ⟨hh, e, he, rfl⟩, -⟩
    obtain ⟨b, hb, -, hd⟩ := declares_of_entry hs hstands hh he
    exact hd.exists_declaration

theorem agree_of_entries {h : Heading} (hh : h ≠ .declarations) {e : Entry h.table}
    (he : e ∈ c.entries h) {e' : Entry .declarations} (he' : e' ∈ c.entries .declarations)
    (hname : e'.name = e.name) : c.Agree h e e' := by
  obtain ⟨b, hb, hfile, id, kind, target, id', hkind, htarget, hentered, hdeclared⟩ :=
    declares_of_entry hs hstands hh he
  have hdeclaration := hdeclared.entry_eq (Accounted.names_nodup hs .declarations) he' hname
  have hid : e.id = id := congrArg Entry.id (hentered.entry_eq (Accounted.names_nodup hs h) he rfl)
  have hid' : e'.id = id' := congrArg Entry.id hdeclaration
  refine ⟨(congrArg Entry.file hdeclaration).trans hfile, hfile ▸ List.mem_map_of_mem hb, ?_, ?_⟩
  · rw [hid, ← hfile]
    exact hentered.labelled
  · refine ⟨kind, target, hkind, hid ▸ htarget, ?_⟩
    rw [hid', ← hfile]
    exact hdeclared.labelled

/-- The names that the entries of a parsed file list are those of its class. -/
theorem class_entry_iff {b : Build} (hb : b ∈ c.builds) {e : Entry .classes}
    (he : e ∈ c.entries .classes) :
    e.file = b.file ↔ ∃ s ∈ b.source.declaredClass, s.name = e.name := by
  rw [← FileSource.class_mem_names_iff]
  constructor
  · intro hfile
    obtain ⟨b', hb', hfile', hc⟩ := build_of_entry hs (h := .classes) he
    cases build_unique hs hb' hb (hfile'.trans hfile)
    exact (FileSource.registered_mem_changes_iff (by decide)).mp ((hstands b hb).names _ _ hc)
  · intro hname
    obtain ⟨e', he', hname', hfile'⟩ := ((hstands b hb).declares _ hname).exists_entry
    rw [List.inj_on_of_nodup_map (Accounted.names_nodup hs .classes) he he' hname'.symm, hfile']

theorem exists_class_entry {b : Build} (hb : b ∈ c.builds) {s : ClassSource}
    (hclass : b.source.declaredClass = some s) :
    ∃! e, e ∈ c.entries .classes ∧ e.file = b.file := by
  have hmem : (.classes, s.name) ∈ b.source.names :=
    FileSource.class_mem_names_iff.mpr ⟨s, hclass, rfl⟩
  obtain ⟨e, he, hname, hfile⟩ := ((hstands b hb).declares _ hmem).exists_entry
  refine ⟨e, ⟨he, hfile⟩, ?_⟩
  rintro e' ⟨he', hfile'⟩
  obtain ⟨s', hs', hname'⟩ := (class_entry_iff hs hstands hb he').mp hfile'
  cases hclass.symm.trans hs'
  exact List.inj_on_of_nodup_map (Accounted.names_nodup hs .classes) he' he
    (hname'.symm.trans hname.symm)

end

end Catalog

/-- All parsed files are known, and have a class exactly if they are to have one. -/
def Database.Suited (db : Database) : Prop :=
  ∀ b ∈ db.catalog.builds, db.files.Suits b

theorem FileTable.Keeps.suits {files files' : FileTable} (h : files.Keeps files') {b : Build}
    (hb : files.Suits b) : files'.Suits b := by
  obtain ⟨file, hfile, hkind⟩ := hb
  exact ⟨file, h _ _ hfile, hkind⟩

namespace Database

variable {db : Database}

theorem Suited.load (disk : Disk) (name : String) (h : Settled db.catalog ∧ db.Suited) :
    Settled (db.load disk name).2.catalog ∧ (db.load disk name).2.Suited := by
  refine ⟨load_settled disk name h.1, fun b hb => ?_⟩
  rw [load_files]
  exact (load_adds db disk name h.1 b hb).elim (h.2 b) fun hadmits => hadmits.suits

theorem Reachable.suited (h : db.Reachable) : db.Suited :=
  (h.induction (P := fun db => Settled db.catalog ∧ db.Suited)
    (fun _ _ => ⟨settled_empty, by simp [Suited]⟩)
    (fun hr h => ⟨h.1, fun b hb => (FileTable.register_keeps hr).suits (h.2 b hb)⟩) Suited.load).2

/-- Declared names are coherent. A name is declared exactly if it is listed under one heading, and
under one only; its two entries agree; and a parsed file lists one class if it is an interface,
and none otherwise. -/
theorem Reachable.namespace_coherent (h : db.Reachable) :
    (∀ k, ((db.catalog.entries k).map Entry.name).Nodup) ∧
    (∀ name, (∃ e ∈ db.catalog.entries .declarations, e.name = name) ↔
      ∃! k, k ≠ .declarations ∧ ∃ e ∈ db.catalog.entries k, e.name = name) ∧
    (∀ k, k ≠ .declarations → ∀ e ∈ db.catalog.entries k, ∀ e' ∈ db.catalog.entries .declarations,
      e'.name = e.name → db.catalog.Agree k e e') ∧
    ∀ name ∈ db.catalog.parsed, ∃ file, db.files.find? name = some file ∧
      match file.kind with
      | .interface => ∃! e, e ∈ db.catalog.entries .classes ∧ e.file = name
      | .types => ∀ e ∈ db.catalog.entries .classes, e.file ≠ name := by
  have hs := h.settled
  refine ⟨Accounted.names_nodup hs, Catalog.declared_iff hs h.stands, fun k hk e he e' he' =>
    Catalog.agree_of_entries hs h.stands hk he he', fun name hname => ?_⟩
  obtain ⟨b, hb, rfl⟩ := List.mem_map.mp hname
  obtain ⟨file, hfile, hkind⟩ := h.suited b hb
  refine ⟨file, hfile, ?_⟩
  split
  · next hinterface =>
    obtain ⟨s, hclass⟩ := Option.isSome_iff_exists.mp (hkind.mp hinterface)
    exact Catalog.exists_class_entry hs h.stands hb hclass
  · next htypes =>
    intro e he hfile'
    obtain ⟨s, hclass, -⟩ := (Catalog.class_entry_iff hs h.stands hb he).mp hfile'
    have hinterface := hkind.mpr (by rw [Option.mem_def.mp hclass]; rfl)
    rw [htypes] at hinterface
    cases hinterface

/-- The file that stays parsed has its class, although the other file of the cycle failed. -/
theorem namespace_coherent_halfCycle : halfCycle.Reachable ∧ halfCycle.catalog.parsed = ["b.eo"] ∧
    ∃! e, e ∈ halfCycle.catalog.entries .classes ∧ e.file = "b.eo" := by
  have hreachable := cyclicDatabase_reachable.parse cyclicDisk "a.eo"
  have hparsed : halfCycle.catalog.parsed = ["b.eo"] := by decide +kernel
  obtain ⟨-, -, -, hclasses⟩ := Reachable.namespace_coherent hreachable
  obtain ⟨file, hfile, hclass⟩ := hclasses "b.eo" (hparsed ▸ List.mem_singleton_self _)
  have hknown : halfCycle.files.find? "b.eo" = some ⟨"b.eo", .ofString "/b.eo", .interface⟩ := by
    decide +kernel
  cases hknown.symm.trans hfile
  exact ⟨hreachable, hparsed, hclass⟩

end Database

end InterfaceCatalog
