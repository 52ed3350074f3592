import InterfaceCatalog.Proofs.Database.Bulk
import InterfaceCatalog.Proofs.Database.Permanence
import InterfaceCatalog.Proofs.Query.Lookup

namespace InterfaceCatalog

/-- Whether a declaration is listed under a heading. All of them are declarations. -/
def DeclarationSource.IsUnder (h : Heading) (x : DeclarationSource) : Prop :=
  x.heading = h ∨ h = .declarations

instance (h : Heading) (x : DeclarationSource) : Decidable (x.IsUnder h) :=
  inferInstanceAs (Decidable (_ ∨ _))

theorem DeclarationSource.heading_ne (x : DeclarationSource) : x.heading ≠ .declarations := by
  cases x <;> simp [heading]

theorem namesUnder_changes (h : Heading) (xs : List DeclarationSource) :
    namesUnder h (xs.flatMap DeclarationSource.changes) =
      (xs.filter (·.IsUnder h)).map DeclarationSource.name := by
  induction xs with
  | nil => rfl
  | cons x xs ih =>
    have hx : namesUnder h x.changes = if x.IsUnder h then [x.name] else [] := by
      have hsplit : x.changes =
        [.registered x.heading x.name] ++ [.registered .declarations x.name] := rfl
      rw [hsplit, namesUnder_append, namesUnder_registered, namesUnder_registered]
      by_cases hh : h = .declarations
      · subst hh
        simp [DeclarationSource.IsUnder, x.heading_ne]
      · simp [DeclarationSource.IsUnder, hh, Ne.symm hh]
    rw [List.flatMap_cons, namesUnder_append, ih, hx]
    by_cases hu : x.IsUnder h <;> simp [hu]

namespace Catalog

def records (c : Catalog) : Lookup := fun _ id => c.get? id

theorem records_covers (c : Catalog) (journal : List Change) : c.records.Covers c journal :=
  fun _ _ _ hget => hget

/-- What a file lists under a heading. -/
def ListsAs (c : Catalog) (file : String) (h : Heading) (xs : List DeclarationSource) : Prop :=
  List.Forall₂ (fun x (v : View h.table) => ∃ target, h.target? v.id = some target ∧
    x.StoredAt c.records file target) xs (c.listAll h (some file))

/-- What a file lists under a heading, with what its build has seen to. -/
def ListsBuilt (c : Catalog) (file : String) (h : Heading) (xs : List DeclarationSource) : Prop :=
  List.Forall₂ (fun x (v : View h.table) => ∃ target, h.target? v.id = some target ∧
    x.BuiltAt c.records file target) xs (c.listAll h (some file))

theorem ListsBuilt.listsAs {c : Catalog} {file : String} {h : Heading} {xs : List DeclarationSource}
    (hl : c.ListsBuilt file h xs) : c.ListsAs file h xs :=
  hl.imp fun _ _ ⟨target, htarget, hbuilt⟩ => ⟨target, htarget, hbuilt.stored⟩

/-- What a file declares. -/
def DeclaresAll (c : Catalog) (file : String) (xs : List DeclarationSource) : Prop :=
  List.Forall₂
    (fun x (v : View .declarations) => v.record.fullName = x.name ∧ v.record.file = file ∧
    x.heading.declarationKind? = some v.record.kind ∧ x.StoredAt c.records file v.record.target)
    xs (c.listAll .declarations (some file))

/-- A file was built from what it says. -/
def HasBuilt (c : Catalog) (file : String) (source : FileSource) : Prop :=
  ∃ b ∈ c.builds, b.file = file ∧ b.source = source

/-- The unit of a file yields what the file declares. -/
structure Reproduces (c : Catalog) (file : String) (source : FileSource) : Prop where
  classes : c.ListsAs file .classes (source.declaredClass.toList.map .declaredClass)
  structs : c.ListsAs file .structs (source.structs.map .struct)
  enums : c.ListsAs file .enums (source.enums.map .enum)
  aliases : c.ListsAs file .aliases
    (source.aliases.map .alias ++ source.functionPointers.map .functionPointer)
  constants : c.ListsAs file .constants (source.constants.map .constant)
  globals : c.ListsAs file .globals (source.globals.map .global)
  declarations : c.DeclaresAll file source.declarations

variable {c : Catalog}

section

variable {b : Build} (hr : b.Reproduced c) (hl : c.Lists b.owner)
  (hn : ∀ h, ((c.entries h).map Entry.name).Nodup) (hi : c.InStep)

include hr hl

/-- The entries of a parsed file under a heading bear the names of its declarations. -/
theorem forall₂_fileEntries (h : Heading) :
    List.Forall₂ (fun x e => e.name = x.name) (b.source.declarations.filter (·.IsUnder h))
      (c.fileEntries h b.file) := by
  have hnames : (c.fileEntries h b.file).map Entry.name =
      (b.source.declarations.filter (·.IsUnder h)).map DeclarationSource.name := by
    rw [← namesUnder_changes, ← FileSource.changes_eq, ← hr.names]
    exact hl h
  have hsame : List.Forall₂ (· = ·) ((c.fileEntries h b.file).map Entry.name)
      ((b.source.declarations.filter (·.IsUnder h)).map DeclarationSource.name) := by
    rw [hnames]
    exact List.forall₂_refl _
  exact (List.forall₂_map_right_iff.mp (List.forall₂_map_left_iff.mp hsame)).flip

include hn hi

theorem listsBuilt_of_reproduced {h : Heading} (hh : h ≠ .declarations) :
    c.ListsBuilt b.file h (b.source.declarations.filter (·.heading = h)) := by
  have hunder : b.source.declarations.filter (·.heading = h) =
      b.source.declarations.filter (·.IsUnder h) := by simp [DeclarationSource.IsUnder, hh]
  rw [hunder, ListsBuilt, hi.listAll_file]
  refine forall₂_views (List.forall₂_map_right_iff.mpr ?_)
  refine forall₂_imp_mem (forall₂_fileEntries hr hl h) fun x hx e he hname => ?_
  obtain ⟨hmem, hu⟩ := List.mem_filter.mp hx
  have hxh : x.heading = h := by simpa [DeclarationSource.IsUnder, hh] using hu
  subst hxh
  obtain ⟨target, ⟨id, kind, id', -, htarget, hentered, -⟩, hstored⟩ := hr.stored x hmem
  cases hentered.entry_eq (hn _) (List.mem_of_mem_filter he) hname
  obtain ⟨r, hget, -⟩ := Option.bind_eq_some_iff.mp hentered.labelled
  exact ⟨r, hget, target, htarget, hstored c.records (c.records_covers _)⟩

/-- Each declaration of a parsed file leads to what it says. The records of the build
are enough to tell. -/
theorem forall₂_declarations {find : Lookup} (hfind : find.Covers c b.journal) :
    List.Forall₂
      (fun x (v : View .declarations) => v.record.fullName = x.name ∧ v.record.file = b.file ∧
      x.heading.declarationKind? = some v.record.kind ∧ x.BuiltAt find b.file v.record.target)
      b.source.declarations (c.listAll .declarations (some b.file)) := by
  have hunder : b.source.declarations.filter (·.IsUnder .declarations) = b.source.declarations := by
    simp [DeclarationSource.IsUnder]
  have hentries := forall₂_fileEntries hr hl .declarations
  rw [hunder] at hentries
  rw [hi.listAll_file]
  refine forall₂_views (List.forall₂_map_right_iff.mpr ?_)
  refine forall₂_imp_mem hentries fun x hx e he hname => ?_
  obtain ⟨target, ⟨id, kind, id', hkind, -, -, hentered⟩, hstored⟩ := hr.stored x hx
  cases hentered.entry_eq (hn _) (List.mem_of_mem_filter he) hname
  obtain ⟨r, hget, hlabel⟩ := Option.bind_eq_some_iff.mp hentered.labelled
  simp only [label, Option.some.injEq, Label.mk.injEq, Role.declaration.injEq] at hlabel
  obtain ⟨hfull, hfile, rfl, rfl⟩ := hlabel
  exact ⟨r, hget, hfull, hfile, hkind, hstored find hfind⟩

theorem declaresAll_of_reproduced : c.DeclaresAll b.file b.source.declarations := by
  have hdeclarations := forall₂_declarations hr hl hn hi (c.records_covers b.journal)
  exact hdeclarations.imp fun _ _ ⟨hfull, hfile, hkind, hbuilt⟩ =>
    ⟨hfull, hfile, hkind, hbuilt.stored⟩

theorem reproduces_of_reproduced : c.Reproduces b.file b.source := by
  have lists {h : Heading} (hh : h ≠ .declarations) {xs : List DeclarationSource}
      (hxs : b.source.declarations.filter (·.heading = h) = xs) : c.ListsAs b.file h xs :=
    hxs ▸ (listsBuilt_of_reproduced hr hl hn hi hh).listsAs
  refine ⟨lists (by decide) ?_, lists (by decide) ?_, lists (by decide) ?_, lists (by decide) ?_,
    lists (by decide) ?_, lists (by decide) ?_, declaresAll_of_reproduced hr hl hn hi⟩
  all_goals
    simp [FileSource.declarations, FileSource.declaredTypes, FileSource.declaredVariables,
      List.filter_map, Function.comp_def, DeclarationSource.heading]

end

end Catalog

namespace Database

variable {db : Database}

theorem load_told (disk : Disk) (name : String) (h : Settled db.catalog ∧ db.catalog.Told) :
    Settled (db.load disk name).2.catalog ∧ (db.load disk name).2.catalog.Told :=
  ⟨load_settled disk name h.1, (load_outcome db disk name h.1).2.2.1 h.2⟩

theorem Reachable.told (h : db.Reachable) : db.catalog.Told :=
  (h.induction (P := fun db => Settled db.catalog ∧ db.catalog.Told)
    (fun _ _ => ⟨settled_empty, Catalog.told_empty⟩) (fun _ h => h) load_told).2

/-- A database into which files are loaded. Each build that is new has what its file says. -/
structure Loads (src : Sources) (c : Catalog) (disk : Disk) (db : Database) : Prop where
  sources : db.sources disk = src
  settled : Settled db.catalog
  adds : c.Adds src.Admits db.catalog

theorem Loads.load {src : Sources} {c : Catalog} {disk : Disk} (name : String)
    (h : db.Loads src c disk) : (db.load disk name).2.Loads src c disk := by
  obtain ⟨rfl, hs, hadds⟩ := h
  exact ⟨load_sources db disk name disk, load_settled disk name hs,
    hadds.trans (load_adds db disk name hs)⟩

/-- What has been built in the meantime is what its file says. -/
def BuiltSince (db : Database) (disk : Disk) (db' : Database) : Prop :=
  ∀ file source, db'.catalog.HasBuilt file source → db.catalog.HasBuilt file source ∨
    ∃ scanned, db'.files.find? file = some scanned ∧
    (db'.sources disk).readSource scanned = .ok source

theorem Loads.builtSince {src : Sources} {disk : Disk} {db' : Database}
    (h : db'.Loads src db.catalog disk) : db.BuiltSince disk db' := by
  obtain ⟨rfl, -, hadds⟩ := h
  rintro _ _ ⟨b, hb, rfl, rfl⟩
  exact (hadds b hb).imp (fun hold => ⟨b, hold, rfl, rfl⟩) fun hadmits => hadmits.read

theorem parse_builtSince (hs : Settled db.catalog) (disk : Disk) (nameOrPath : String) :
    db.BuiltSince disk (db.parse disk nameOrPath).2 := by
  have hcatalog := nameFile_catalog db disk nameOrPath
  have hnamed : (db.nameFile disk nameOrPath).2.Loads ((db.nameFile disk nameOrPath).2.sources disk)
      db.catalog disk := ⟨rfl, hcatalog.symm ▸ hs, hcatalog.symm ▸ .refl _⟩
  exact (parse_induction Loads.load hnamed).builtSince

theorem parseAll_builtSince (hs : Settled db.catalog) (disk : Disk) (kind : FileKind) :
    db.BuiltSince disk (db.parseAll disk kind).2 := by
  have hloads : db.Loads (db.sources disk) db.catalog disk := ⟨rfl, hs, .refl _⟩
  exact (loadEach_induction Loads.load hloads).builtSince

theorem parsed_of_parse {disk : Disk} {nameOrPath name : String}
    (h : (db.parse disk nameOrPath).1 = .ok name) :
    name ∈ (db.parse disk nameOrPath).2.catalog.parsed := by
  unfold parse at h ⊢
  split at h
  · cases h
  split at h
  · cases h
  split at h
  · next hparsed =>
    cases h
    rw [if_pos hparsed]
    simpa [Catalog.isParsed] using hparsed
  · cases h

section

variable {q : Progress} (h : Moves [] ⟨{}, []⟩ q) {b : Build} (hb : b ∈ q.catalog.builds)
  (hr : b.Reproduced q.catalog)

include h hb hr

theorem reproduces_of_moves : q.catalog.Reproduces b.file b.source :=
  Catalog.reproduces_of_reproduced hr
    (h.listed sound_empty listed_empty b.owner (owner_mem_owners hb _))
    (Accounted.names_nodup (Moves.sound h sound_empty))
    (Accounted.inStep (Moves.sound h sound_empty))

theorem listsBuilt_of_moves {k : Heading} (hk : k ≠ .declarations) :
    q.catalog.ListsBuilt b.file k (b.source.declarations.filter (·.heading = k)) :=
  Catalog.listsBuilt_of_reproduced hr
    (h.listed sound_empty listed_empty b.owner (owner_mem_owners hb _))
    (Accounted.names_nodup (Moves.sound h sound_empty))
    (Accounted.inStep (Moves.sound h sound_empty)) hk

end

theorem Request.reachable {db' : Database} (hr : Request db db') (h : db.Reachable) :
    db'.Reachable := by
  cases hr with
  | scan disk directory => exact h.scan disk directory
  | scanSystem disk => exact h.scanSystem disk
  | parse disk nameOrPath => exact h.parse disk nameOrPath
  | parseAll disk kind => exact h.parseAll disk kind

theorem Later.reachable {db' : Database} (hl : Later db db') (h : db.Reachable) :
    db'.Reachable := by
  induction hl with
  | refl => exact h
  | tail _ hr ih => exact hr.reachable ih

section

variable (h : db.Reachable) {p q : Progress} (hp : Moves [] ⟨{}, []⟩ p) (hpq : Moves [] p q)
  (hq : Moves [] q ⟨db.catalog, []⟩) {file : String} {source : FileSource}

include h hp hpq hq

/-- Once a file is built, it is reproduced in each state that a session goes through. -/
theorem Reachable.reproduced_between (hbuilt : p.catalog.HasBuilt file source) :
    ∃ b ∈ q.catalog.builds, b.file = file ∧ b.source = source ∧ b.Reproduced q.catalog := by
  obtain ⟨b, hb, hfile, hsource⟩ := hbuilt
  have hmem := (Moves.get?_of_built hpq (Moves.sound hp sound_empty) hb).1
  have hlast := hq.reproduced_iff (Moves.sound (hp.trans hpq) sound_empty) hmem
  exact ⟨b, hmem, hfile, hsource, hlast.2.mpr (h.told.reproduced b hlast.1)⟩

theorem Reachable.reproduces_between (hbuilt : p.catalog.HasBuilt file source) :
    q.catalog.HasBuilt file source ∧ q.catalog.Reproduces file source := by
  obtain ⟨b, hb, rfl, rfl, hr⟩ := h.reproduced_between hp hpq hq hbuilt
  exact ⟨⟨b, hb, rfl, rfl⟩, reproduces_of_moves (hp.trans hpq) hb hr⟩

end

/-- A file that is parsed is built from what it says, and is reproduced from then on: between
requests, and in the middle of any later one. -/
theorem Reachable.reproduces (h : db.Reachable) :
    (∀ disk nameOrPath name, (db.parse disk nameOrPath).1 = .ok name →
      ∃ source, (db.parse disk nameOrPath).2.catalog.HasBuilt name source) ∧
    (∀ disk nameOrPath, db.BuiltSince disk (db.parse disk nameOrPath).2) ∧
    (∀ disk kind, db.BuiltSince disk (db.parseAll disk kind).2) ∧
    (∀ db', Later db db' → ∀ file source, db.catalog.HasBuilt file source →
      db'.catalog.HasBuilt file source ∧ db'.catalog.Reproduces file source) ∧
    ∀ p q, Moves [] ⟨{}, []⟩ p → Moves [] p q → Moves [] q ⟨db.catalog, []⟩ →
      ∀ file source, p.catalog.HasBuilt file source →
        q.catalog.HasBuilt file source ∧ q.catalog.Reproduces file source := by
  refine ⟨fun disk nameOrPath name hok => ?_, parse_builtSince h.settled,
    parseAll_builtSince h.settled,
    fun db' hlater file source hbuilt => ?_, fun p q hp hpq hq file source =>
    h.reproduces_between hp hpq hq⟩
  · obtain ⟨b, hb, rfl⟩ := List.mem_map.mp (parsed_of_parse hok)
    exact ⟨b.source, b, hb, rfl, rfl⟩
  · exact (hlater.reachable h).reproduces_between h.leads (hlater.leads h.settled) .refl hbuilt

/-- Knows two files, and reads the same from both. -/
def readingDatabase (source : FileSource) : Database :=
  { cyclicDatabase with reader := fun _ _ => .ok source }

theorem readingDatabase_reachable (source : FileSource) : (readingDatabase source).Reachable :=
  scanned_reachable _

theorem hasBuilt_of_parse {source : FileSource}
    (hparse : ((readingDatabase source).parse cyclicDisk "a.eo").1 = .ok "a.eo") :
    ((readingDatabase source).parse cyclicDisk "a.eo").2.catalog.HasBuilt "a.eo" source := by
  obtain ⟨b, hb, hfile⟩ := List.mem_map.mp (parsed_of_parse hparse)
  have hsettled := (readingDatabase_reachable source).settled
  rcases parse_builtSince hsettled cyclicDisk "a.eo" "a.eo" b.source ⟨b, hb, hfile, rfl⟩ with
    ⟨b', hb', -⟩ | ⟨scanned, hscanned, hread⟩
  · cases hb'
  · have hsources : ((readingDatabase source).parse cyclicDisk "a.eo").2.sources cyclicDisk =
        (readingDatabase source).sources cyclicDisk :=
      (parse_sources _ _ _).trans (by rw [readingDatabase, nameFile_cyclic])
    have hfiles : ((readingDatabase source).parse cyclicDisk "a.eo").2.files =
        cyclicDatabase.files :=
      congrArg Sources.files hsources
    rw [hsources] at hread
    rw [hfiles] at hscanned
    have hbytes : cyclicDisk.read (.ofString "/a.eo") = .ok (encodeUtf8 "a") := by decide +kernel
    have htext : decodeText (encodeUtf8 "a") = .ok "a" := by decide +kernel
    have hknown : cyclicDatabase.files.find? "a.eo" =
        some ⟨"a.eo", .ofString "/a.eo", .interface⟩ :=
      rfl
    cases hknown.symm.trans hscanned
    have hsource : source = b.source := by
      simpa [Sources.readSource, Database.sources, hbytes, htext, readingDatabase] using hread
    exact ⟨b, hb, hfile, hsource.symm⟩

/-- Declares something of each kind. The getter of the property has keys of its own. -/
def declaringSource : FileSource :=
  let int : TypeSource := .named "int" ⟨false, false, false⟩ none []
  { declaredClass := some {
      name := "A"
      methods := [{ name := "m", parameters := [{ name := "x", type := int }] }]
      properties := [{
        name := "p", keys := [{ name := "k", type := int }]
        values := [{ name := "v", type := int }]
        getter := some { keys := some [] }, setter := some {} }]
      implements := [{ name := "class.constructor" }, { name := "A.m" }] }
    structs := [{
      name := "S", fields := [{ name := "a", type := int }, { name := "b", type := int }] }]
    enums := [{ name := "E", fields := [{ name := "F" }] }]
    aliases := [{ name := "T", type := int }]
    functionPointers := [{ name := "P", parameters := [{ name := "x", type := int }] }]
    constants := [{ name := "C", type := int, value := some "1" }]
    globals := [{ name := "G", type := int }] }

def declaringDatabase : Database :=
  { cyclicDatabase with reader := fun _ _ => .ok declaringSource }

def declaringParsed : Database :=
  (declaringDatabase.parse cyclicDisk "a.eo").2

/-- The implements that only switch on the constructor of the class are not listed. -/
theorem reproduces_declaring :
    declaringDatabase.Reachable ∧ declaringParsed.catalog.HasBuilt "a.eo" declaringSource ∧
      declaringParsed.catalog.Reproduces "a.eo" declaringSource ∧
      (declaringParsed.catalog.listAll .declarations (some "a.eo")).map (·.record.fullName) =
        ["A", "S", "E", "T", "P", "C", "G"] ∧
      (declaringParsed.catalog.listAll .classes (some "a.eo")).map (fun v =>
          (declaringParsed.catalog.views v.record.implements).map (·.record.fullName)) =
        [["A.m", "A.p", "A.m"]] := by
  have hreachable : declaringDatabase.Reachable := readingDatabase_reachable _
  have hbuilt : declaringParsed.catalog.HasBuilt "a.eo" declaringSource :=
    hasBuilt_of_parse (by decide +kernel)
  obtain ⟨-, -, -, hlater, -⟩ := (hreachable.parse cyclicDisk "a.eo").reproduces
  exact ⟨hreachable, hbuilt, (hlater _ .refl "a.eo" _ hbuilt).2, by decide +kernel,
    by decide +kernel⟩

end Database

end InterfaceCatalog
