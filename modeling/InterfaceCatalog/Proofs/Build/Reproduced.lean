import InterfaceCatalog.Proofs.Build.Standing
import InterfaceCatalog.Proofs.Catalog.Built

namespace InterfaceCatalog

def Change.isRegistered : Change → Bool
  | registered .. => true
  | inserted .. => false

/-- The names that a journal enters, oldest first. -/
def registrations (journal : List Change) : List Change :=
  (journal.filter Change.isRegistered).reverse

@[simp] theorem registrations_nil : registrations [] = [] := rfl

@[simp] theorem registrations_registered (h : Heading) (name : String) (journal : List Change) :
    registrations (.registered h name :: journal) =
      registrations journal ++ [.registered h name] := by
  rw [registrations, List.filter_cons_of_pos rfl, List.reverse_cons, registrations]

/-- Whatever the records of a journal are in a catalog, they are found. -/
def Lookup.Covers (find : Lookup) (c : Catalog) (journal : List Change) : Prop :=
  ∀ {t : Table} (id : Id t) (r : Record t), Change.inserted t id ∈ journal → c.get? id = some r →
    find t id = some r

namespace Catalog

/-- A build has declared a name, and its declaration leads to a target. -/
def DeclaresAs (c : Catalog) (o : Owner) (h : Heading) (name : String)
    (target : DeclarationTarget) : Prop :=
  ∃ id kind id', h.declarationKind? = some kind ∧ h.target? id = some target ∧
    c.Entered o h name (.listed h) id ∧
    c.Entered o .declarations name (.declaration kind target) id'

theorem DeclaresAs.declares {c : Catalog} {o : Owner} {h : Heading} {name : String}
    {target : DeclarationTarget} (hd : c.DeclaresAs o h name target) : c.Declares o h name := by
  obtain ⟨id, kind, id', hkind, htarget, he, he'⟩ := hd
  exact ⟨id, kind, target, id', hkind, htarget, he, he'⟩

/-- Each entry repeats the label of its record. -/
def Named (c : Catalog) : Prop :=
  ∀ h, ∀ e ∈ c.entries h, ∃ role, c.label? e.id = some ⟨e.name, e.file, role⟩

namespace Named

variable {c : Catalog}

theorem insert (hn : c.Named) (wf : c.WellFormed) {t : Table} (record : Record t) :
    (c.insert record).Named := by
  intro h e he
  obtain ⟨role, hl⟩ := hn h e he
  refine ⟨role, ?_⟩
  rwa [label?, get?_insert_of_live wf record (live_of_label? hl)]

theorem modify (hn : c.Named) {t : Table} {id : Id t} {f : Record t → Record t}
    (hf : ∀ r, label t (f r) = label t r) : (c.modify id f).Named := by
  intro h e he
  obtain ⟨role, hl⟩ := hn h e he
  exact ⟨role, (label?_modify c hf e.id).trans hl⟩

theorem enter (hn : c.Named) {h : Heading} {e : Entry h.table} {role : Role}
    (hl : c.label? e.id = some ⟨e.name, e.file, role⟩) : (c.enter h e).Named := by
  intro k e' he'
  by_cases hk : h = k
  · subst hk
    rw [entries_enter_self] at he'
    rcases List.mem_append.mp he' with he' | he'
    · exact hn h e' he'
    · cases List.mem_singleton.mp he'
      exact ⟨role, hl⟩
  · rw [entries_enter_of_ne c e hk] at he'
    exact hn k e' he'

/-- The entries that are left when a journal is taken back keep their records. -/
theorem rollback (hn : c.Named) {o : Owner} {owners : List Owner} (ha : Accounted c (o :: owners)) :
    (c.rollback o.journal).Named := by
  intro h e he
  rw [entries_rollback] at he
  obtain ⟨he, hout⟩ := List.mem_filter.mp he
  obtain ⟨o', ho', -, hr, hi⟩ := ha.owner_of_entry h e he
  rcases List.mem_cons.mp ho' with rfl | ho'
  · simp [hr] at hout
  · have hid : Change.inserted h.table e.id ∉ o.journal := fun hid => ha.owner_unique hid ho' hi
    obtain ⟨role, hl⟩ := hn h e he
    refine ⟨role, ?_⟩
    rwa [label?, get?_rollback, if_neg hid]

end Named

end Catalog

/-- A parsed file has entered what it declares, in order, and each declaration is stored as it is
written and was seen to. The records of its own build are enough to tell. -/
structure Build.Reproduced (b : Build) (c : Catalog) : Prop where
  names : registrations b.journal = b.source.changes
  stored : ∀ x ∈ b.source.declarations, ∃ target, c.DeclaresAs b.owner x.heading x.name target ∧
    ∀ find : Lookup, find.Covers c b.journal → x.BuiltAt find b.file target

theorem Build.Reproduced.conclude {b : Build} {c : Catalog} (h : b.Reproduced c) (b' : Build) :
    b.Reproduced (c.conclude b') where
  names := h.names
  stored x hx := by
    obtain ⟨target, ⟨id, kind, id', hkind, htarget, he, he'⟩, hstored⟩ := h.stored x hx
    exact ⟨target, ⟨id, kind, id', hkind, htarget, he.conclude b', he'.conclude b'⟩, hstored⟩

/-- What is kept about the names and the parsed files of a catalog. -/
structure Catalog.Told (c : Catalog) : Prop where
  named : c.Named
  reproduced : ∀ b ∈ c.builds, b.Reproduced c

theorem Catalog.Told.conclude {c : Catalog} (ht : c.Told) {b : Build} (hb : b.Reproduced c) :
    (c.conclude b).Told where
  named := ht.named
  reproduced b' hb' := by
    rcases List.mem_append.mp hb' with hb' | hb'
    · exact (ht.reproduced b' hb').conclude b
    · cases List.mem_singleton.mp hb'
      exact hb.conclude b

theorem Catalog.told_empty : ({} : Catalog).Told :=
  ⟨by simp [Named, entries_empty], by simp⟩

section

variable {base : List Frame} {p q : Progress}

/-- An entry of a parsed file was there before, too, if the file was. -/
theorem Move.entered_iff (h : Move [] p q) (hp : p.Sound []) {b : Build} (hb : b ∈ p.catalog.builds)
    {k : Heading} {name : String} {role : Role} {id : Id k.table} :
    p.catalog.Entered b.owner k name role id ↔ q.catalog.Entered b.owner k name role id := by
  refine ⟨h.entered hp hb, fun he => ?_⟩
  obtain ⟨e, hmem, rfl, hfile⟩ :=
    Accounted.entry_of_change hp b.owner (owner_mem_owners hb _) k name he.registered
  obtain ⟨o, ho, hof, -, hid⟩ := Accounted.owner_of_entry hp k e hmem
  -- the owner of an entry is told by its file
  have hsame : o = b.owner :=
    List.inj_on_of_nodup_map (Accounted.files_nodup hp) ho (owner_mem_owners hb _) (hof.trans hfile)
  subst hsame
  have hentry : e = ⟨e.name, b.owner.file, id⟩ :=
    he.entry_eq (Accounted.names_nodup (h.sound hp) k) (h.mem_entries hp hb hmem hid) rfl
  refine ⟨?_, he.registered, he.inserted, ?_⟩
  · rw [← hentry]
    exact Catalog.find?_of_mem hmem (Accounted.names_nodup hp k)
  · rw [Catalog.label?, ← h.get?_of_owned hp (owner_mem_owners hb _) he.inserted]
    exact he.labelled

theorem Move.reproduced_iff (h : Move [] p q) (hp : p.Sound []) {b : Build}
    (hb : b ∈ p.catalog.builds) : b.Reproduced p.catalog ↔ b.Reproduced q.catalog := by
  have hdeclares (k : Heading) (name : String) (target : DeclarationTarget) :
      p.catalog.DeclaresAs b.owner k name target ↔ q.catalog.DeclaresAs b.owner k name target := by
    simp only [Catalog.DeclaresAs, h.entered_iff hp hb]
  have hcovers (find : Lookup) : find.Covers p.catalog b.journal ↔
      find.Covers q.catalog b.journal := by
    have hget {t : Table} {id : Id t} (hid : Change.inserted t id ∈ b.journal) :
        q.catalog.get? id = p.catalog.get? id := h.get?_of_owned hp (owner_mem_owners hb _) hid
    exact ⟨fun hfind _ id r hid hr => hfind id r hid ((hget hid).symm.trans hr),
      fun hfind _ id r hid hr => hfind id r hid ((hget hid).trans hr)⟩
  constructor
  · refine fun hr => ⟨hr.names, fun x hx => ?_⟩
    obtain ⟨target, hd, hstored⟩ := hr.stored x hx
    exact ⟨target, (hdeclares _ _ _).mp hd, fun find hfind =>
      hstored find ((hcovers find).mpr hfind)⟩
  · refine fun hr => ⟨hr.names, fun x hx => ?_⟩
    obtain ⟨target, hd, hstored⟩ := hr.stored x hx
    exact ⟨target, (hdeclares _ _ _).mpr hd, fun find hfind =>
      hstored find ((hcovers find).mp hfind)⟩

/-- Whether a parsed file is reproduced is the same in every state of a session. -/
theorem Moves.reproduced_iff (h : Moves [] p q) (hp : p.Sound []) {b : Build}
    (hb : b ∈ p.catalog.builds) :
    b ∈ q.catalog.builds ∧ (b.Reproduced p.catalog ↔ b.Reproduced q.catalog) := by
  induction h with
  | refl => exact ⟨hb, .rfl⟩
  | tail hms hm ih =>
    exact ⟨hm.builds_subset ih.1, ih.2.trans (hm.reproduced_iff (Moves.sound hms hp) ih.1)⟩

/-- Builds that stand still may just as well be counted as under way. -/
theorem Moves.ground (h : Moves base p q) :
    Moves [] ⟨p.catalog, p.frames ++ base⟩ ⟨q.catalog, q.frames ++ base⟩ := by
  induction base generalizing p q with
  | nil => simpa using h
  | cons fr base ih => simpa using ih (Moves.lift h)

theorem Progress.Sound.ground (h : p.Sound base) :
    Progress.Sound [] ⟨p.catalog, p.frames ++ base⟩ := by
  simpa [Progress.Sound] using h

theorem Moves.reproduced (h : Moves base p q) (hp : p.Sound base) {b : Build}
    (hb : b ∈ p.catalog.builds) (hr : b.Reproduced p.catalog) : b.Reproduced q.catalog :=
  (h.ground.reproduced_iff hp.ground hb).2.mp hr

/-- A part of a build that adds no parsed file leaves what is told of the others. -/
theorem Catalog.Told.moves (h : Moves base p q) (hp : p.Sound base) (ht : p.catalog.Told)
    (hb : q.catalog.builds = p.catalog.builds) (hn : q.catalog.Named) : q.catalog.Told :=
  ⟨hn, fun b hmem => h.reproduced hp (hb ▸ hmem) (ht.reproduced b (hb ▸ hmem))⟩

end

end InterfaceCatalog
