import InterfaceCatalog.Proofs.Build.FamilyLoading
import InterfaceCatalog.Proofs.Database.Namespace

namespace InterfaceCatalog

namespace Catalog

variable {c : Catalog}

/-- An entry of a class stands for a record with its name. -/
theorem fullName_of_class_entry (hs : Database.Settled c) (hstands : ∀ b ∈ c.builds, b.Stands c)
    {e : Entry .classes} (he : e ∈ c.entries .classes) :
    ∃ r, c.get? e.id = some r ∧ r.fullName = e.name := by
  obtain ⟨b, -, -, id, _, _, _, -, -, hentered, -⟩ := declares_of_entry hs hstands (by decide) he
  have hid : e.id = id :=
    congrArg Entry.id (hentered.entry_eq (Accounted.names_nodup hs .classes) he rfl)
  obtain ⟨r, hr, hlabel⟩ := Option.bind_eq_some_iff.mp hentered.labelled
  exact ⟨r, hid ▸ hr, congrArg Label.name (Option.some.inj hlabel)⟩

/-- The classes of resolved names bear these names. -/
theorem fullName_views (hs : Database.Settled c) (hstands : ∀ b ∈ c.builds, b.Stands c)
    {names : List String} {ids : List (Id .classes)} (h : Sources.Family.Resolved c names ids) :
    (c.views ids).map (fun v => v.record.fullName) = names := by
  induction h with
  | nil => rfl
  | @cons name id names ids hfound _ ih =>
    obtain ⟨e, he, rfl⟩ := hfound
    obtain ⟨hmem, hname⟩ := find?_eq_some he
    obtain ⟨r, hr, hfull⟩ := fullName_of_class_entry hs hstands hmem
    have hview : c.view? e.id = some ⟨e.id, r⟩ := view?_of_get? hr
    have hcons : c.views (e.id :: ids) = ⟨e.id, r⟩ :: c.views ids := List.filterMap_cons_some hview
    rw [hcons, List.map_cons, ih, hfull, hname]

end Catalog

namespace Sources.Family

variable {src : Sources} {fam : src.Family} {c : Catalog}

/-- Whatever a parsed file leads to is parsed when nothing is being built. -/
theorem Intact.parsed_of_reaches (h : fam.Intact c [] []) {m f : String} (hm : m ∈ c.parsed)
    (hr : fam.Reaches m f) : f ∈ c.parsed := by
  induction hr with
  | refl => exact hm
  | tail _ hn ih => exact (h.closed _ ih _ hn).resolve_right List.not_mem_nil

end Sources.Family

namespace Database

variable {db : Database}

/-- A class of the family, with the parents that its source lists. -/
def Lists (db : Database) {src : Sources} (fam : src.Family) (m : String) : Prop :=
  ∃ e r, db.catalog.registry.classes.find? (fam.className m) = some e ∧ e.file = m ∧
    db.catalog.get? e.id = some r ∧
    (db.catalog.inherits r).map (fun v => v.record.fullName) = (fam.classOf m).inherits

theorem Reachable.lists_of_intact (h : db.Reachable) {src : Sources} {fam : src.Family}
    (hi : fam.Intact db.catalog [] []) {m : String} (hm : m ∈ fam.members)
    (hp : m ∈ db.catalog.parsed) : db.Lists fam m := by
  obtain ⟨e, r, he, hfile, hr, hparents⟩ := hi.built m hm hp
  exact ⟨e, r, he, hfile, hr, Catalog.fullName_views h.settled h.stands hparents⟩

/-- What loading a member comes to when nothing is being built. -/
theorem Reachable.load_member (h : db.Reachable) {disk : Disk} (fam : (db.sources disk).Family)
    (hi : fam.Intact db.catalog [] []) {m : String} (hm : m ∈ fam.members) :
    fam.Loads [] [] m db.catalog ((db.sources disk).parseFile [] m db.catalog) :=
  fam.parseFile_loads [] [] m db.catalog h.settled hm hi fun _ _ hmem =>
    absurd hmem List.not_mem_nil

section

variable {disk : Disk} {input m : String} (hinput : db.nameFile disk input = (.ok m, db))

include hinput

theorem parse_eq_of_ok {c : Catalog} (hr : (db.sources disk).parseFile [] m db.catalog = .ok () c)
    (hm : m ∈ c.parsed) : db.parse disk input = (.ok m, { db with catalog := c }) := by
  have hparsed : c.isParsed m = true := by simpa [Catalog.isParsed] using hm
  simp only [Database.parse, hinput, Database.load, hr, hparsed, if_true]

theorem parse_eq_of_error {e : LoadError} {c : Catalog}
    (hr : (db.sources disk).parseFile [] m db.catalog = .error e c) :
    db.parse disk input = (.error e, { db with catalog := c }) := by
  simp only [Database.parse, hinput, Database.load, hr]

end

/-- Parsing a member of a family of interface files. It succeeds if no file that it leads to has
imports that lead back to one that inherits its class, whatever the graph of the files is otherwise.
Then it parses the files that the member leads to and no others, and all of them have the parents
that they list. If it fails, then for the class of a file with such imports; and a member with such
imports is not parsed first. -/
theorem Reachable.parse_member (h : db.Reachable) {disk : Disk} {src : Sources}
    (hsrc : db.sources disk = src) (fam : src.Family) (hi : fam.Intact db.catalog [] [])
    {input m : String} (hm : m ∈ fam.members) (hinput : db.nameFile disk input = (.ok m, db)) :
    ((∀ x, fam.Reaches m x → ¬ fam.Loops x) → ∃ db', db.parse disk input = (.ok m, db')) ∧
    (∀ f db', db.parse disk input = (.ok f, db') → f = m ∧
      db'.sources disk = src ∧ fam.Intact db'.catalog [] [] ∧
      (∀ f, f ∈ db'.catalog.parsed ↔ f ∈ db.catalog.parsed ∨ fam.Reaches m f) ∧
      (∀ x, fam.Reaches m x → db'.Lists fam x) ∧ (m ∈ db.catalog.parsed ∨ ¬ fam.Loops m)) ∧
    ∀ e db', db.parse disk input = (.error e, db') →
      ∃ x, fam.Reaches m x ∧ fam.Loops x ∧ e.cause = .unresolvedClass (fam.className x) := by
  subst hsrc
  have hload := h.load_member fam hi hm
  cases hr : (db.sources disk).parseFile [] m db.catalog with
  | error e c =>
    rw [hr] at hload
    obtain ⟨x, hloops, hx, hcause⟩ := hload
    have hreaches : fam.Reaches m x := hx.resolve_right List.not_mem_nil
    have hparse := parse_eq_of_error hinput hr
    refine ⟨fun hall => absurd hloops (hall x hreaches), fun f db' hok => ?_,
      fun e' db' herror => ?_⟩
    · rw [hparse] at hok
      cases hok
    · rw [hparse] at herror
      cases herror
      exact ⟨x, hreaches, hloops, hcause⟩
  | ok u c =>
    rw [hr] at hload
    obtain ⟨hintact, hparsed, hreached, hloops⟩ := hload
    have hparsed : m ∈ c.parsed := hparsed.resolve_right List.not_mem_nil
    have hparse := parse_eq_of_ok hinput hr hparsed
    have hreachable : Reachable { db with catalog := c } := by
      have hnext := h.parse disk input
      rwa [hparse] at hnext
    have hout := Sources.parseFile_outcome (db.sources disk) [] m db.catalog h.settled
    rw [List.map_nil, hr] at hout
    have hextends := Moves.extends (Steps.moves hout.1) h.settled
    refine ⟨fun _ => ⟨_, hparse⟩, fun f db' hok => ?_, fun e db' herror => ?_⟩
    · rw [hparse] at hok
      cases hok
      refine ⟨rfl, rfl, hintact, fun f => ⟨hreached f, ?_⟩, fun x hx => ?_, ?_⟩
      · rintro (hf | hf)
        · exact hextends.parsed_prefix.subset hf
        · exact hintact.parsed_of_reaches hparsed hf
      · exact hreachable.lists_of_intact hintact (hx.right_mem hm)
          (hintact.parsed_of_reaches hparsed hx)
      · simpa [Sources.Family.Loops] using hloops
    · rw [hparse] at herror
      cases herror

/-- Reads two interface files with the given imports and parents. -/
def pairReader (imports parents : String → List String) : SourceReader := fun _ text =>
  .ok {
    imports := imports text
    declaredClass := some { name := if text = "a" then "A" else "B", inherits := parents text } }

def pairDatabase (imports parents : String → List String) : Database :=
  { cyclicDatabase with reader := pairReader imports parents }

section

variable {imports parents : String → List String} (himports : ∀ text, imports text ⊆ ["a", "b"])
  (hparents : ∀ text, parents text ⊆ ["A", "B"])

/-- Two files with any imports and parents among them. -/
def pairFamily : ((pairDatabase imports parents).sources cyclicDisk).Family where
  members := ["a.eo", "b.eo"]
  classOf m :=
    if m = "a.eo" then { name := "A", inherits := parents "a" }
    else { name := "B", inherits := parents "b" }
  importsOf m := if m = "a.eo" then imports "a" else imports "b"
  known m hm := by
    have ha : cyclicDisk.read (.ofString "/a.eo") = .ok (encodeUtf8 "a") := by decide +kernel
    have hb : cyclicDisk.read (.ofString "/b.eo") = .ok (encodeUtf8 "b") := by decide +kernel
    have hta : decodeText (encodeUtf8 "a") = .ok "a" := by decide +kernel
    have htb : decodeText (encodeUtf8 "b") = .ok "b" := by decide +kernel
    simp only [List.mem_cons, List.not_mem_nil, or_false] at hm
    rcases hm with rfl | rfl
    · refine ⟨⟨"a.eo", .ofString "/a.eo", .interface⟩, rfl, rfl, ?_⟩
      simp [Sources.readSource, Database.sources, ha, hta, pairDatabase, pairReader]
    · refine ⟨⟨"b.eo", .ofString "/b.eo", .interface⟩, rfl, rfl, ?_⟩
      simp [Sources.readSource, Database.sources, hb, htb, pairDatabase, pairReader]
  bare m hm := by split <;> exact ⟨rfl, rfl, rfl, rfl, rfl, rfl⟩
  named m hm := by
    simp only [List.mem_cons, List.not_mem_nil, or_false] at hm
    rcases hm with rfl | rfl
    · change toSmalls (cSpelling "A") ++ "." ++ "eo" = "a.eo"
      decide
    · change toSmalls (cSpelling "B") ++ "." ++ "eo" = "b.eo"
      decide
  imported m hm name hname := by
    have hmem : name ∈ ["a", "b"] := by split at hname <;> exact himports _ hname
    simp only [List.mem_cons, List.not_mem_nil, or_false] at hmem
    rcases hmem with rfl | rfl
    · refine ⟨"a.eo", by simp, ?_⟩
      change (cyclicDatabase.sources cyclicDisk).imported? "a" = some "a.eo"
      decide
    · refine ⟨"b.eo", by simp, ?_⟩
      change (cyclicDatabase.sources cyclicDisk).imported? "b" = some "b.eo"
      decide
  inherited m hm name hname := by
    have hmem : name ∈ ["A", "B"] := by split at hname <;> exact hparents _ hname
    simp only [List.mem_cons, List.not_mem_nil, or_false] at hmem
    rcases hmem with rfl | rfl
    · exact ⟨"a.eo", by simp, rfl⟩
    · exact ⟨"b.eo", by simp, rfl⟩

end

/-- The classes inherit from each other, and the second one from itself, which its
file imports as well. -/
def mutualDatabase : Database :=
  pairDatabase (fun text => if text = "a" then [] else ["b"])
    fun text => if text = "a" then ["B"] else ["A", "B"]

def mutualFamily : (mutualDatabase.sources cyclicDisk).Family :=
  pairFamily (by intro text; split <;> simp) (by intro text; split <;> simp)

theorem not_loops_mutual (m : String) : ¬ mutualFamily.Loops m := by
  rintro ⟨x, ⟨g, ⟨hm, -, name, hname, hg⟩, hout, -⟩, -⟩
  have hm : m = "a.eo" ∨ m = "b.eo" := by simpa using show m ∈ ["a.eo", "b.eo"] from hm
  rcases hm with rfl | rfl
  · exact absurd hname List.not_mem_nil
  · cases List.mem_singleton.mp (show name ∈ ["b"] from hname)
    have hself : (cyclicDatabase.sources cyclicDisk).imported? "b" = some "b.eo" := by decide
    cases hself.symm.trans hg
    exact hout List.mem_cons_self

theorem parse_member_mutual : ∃ db', mutualDatabase.parse cyclicDisk "a.eo" = (.ok "a.eo", db') ∧
    ∀ m ∈ ["a.eo", "b.eo"], m ∈ db'.catalog.parsed ∧ db'.Lists mutualFamily m := by
  have hreachable : mutualDatabase.Reachable := scanned_reachable _
  have hparse :=
    hreachable.parse_member rfl mutualFamily mutualFamily.intact_empty List.mem_cons_self
    (nameFile_cyclic _)
  obtain ⟨db', hok⟩ := hparse.1 fun m _ => not_loops_mutual m
  obtain ⟨-, -, -, hparsed, hlists, -⟩ := hparse.2.1 _ _ hok
  have hreaches : ∀ m ∈ ["a.eo", "b.eo"], mutualFamily.Reaches "a.eo" m := by
    have hinherits : mutualFamily.Inherits "a.eo" "b.eo" :=
      ⟨List.mem_cons_self, List.mem_cons_of_mem _ List.mem_cons_self, List.mem_cons_self⟩
    simp only [List.forall_mem_cons, List.not_mem_nil, false_implies, implies_true, and_true]
    exact ⟨.refl, .single (.inr hinherits)⟩
  exact ⟨db', hok, fun m hm => ⟨(hparsed m).mpr (.inr (hreaches m hm)), hlists m (hreaches m hm)⟩⟩

/-- The first file imports the second one, whose class inherits from that of the first. -/
def earlyDatabase : Database :=
  pairDatabase (fun text => if text = "a" then ["b"] else []) fun text =>
    if text = "a" then [] else ["A"]

def earlyFamily : (earlyDatabase.sources cyclicDisk).Family :=
  pairFamily (by intro text; split <;> simp) (by intro text; split <;> simp)

/-- The first file cannot be parsed before the second one, although nothing else is
wrong with either. -/
theorem parse_early_fails : earlyDatabase.Reachable ∧ "a.eo" ∈ earlyFamily.members ∧
    (earlyDatabase.parse cyclicDisk "a.eo").1 = .error (.dependency "a.eo" (.unresolvedClass "A")) ∧
    (earlyDatabase.parse cyclicDisk "b.eo").1 = .ok "b.eo" :=
  ⟨scanned_reachable _, List.mem_cons_self, by decide +kernel, by decide +kernel⟩

end Database

end InterfaceCatalog
