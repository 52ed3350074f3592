import InterfaceCatalog.Proofs.Build.Meant
import InterfaceCatalog.Proofs.Build.Reproduced

namespace InterfaceCatalog

theorem Catalog.Extends.label? {c c' : Catalog} (h : c.Extends c') {t : Table}
    {id : Id t} {l : Label} (hl : c.label? id = some l) : c'.label? id = some l := by
  obtain ⟨r, hr, hlabel⟩ := Option.bind_eq_some_iff.mp hl
  exact Option.bind_eq_some_iff.mpr ⟨r, h.kept id r hr, hlabel⟩

/-- What is fixed about a build under way, and the builds around it. -/
structure Place where
  file : String
  source : FileSource
  imports : List String
  start : Nat
  outer : List Frame
  /-- What is known of the builds that are added while it goes on. -/
  admits : Build → Prop
  /-- Which other files it may ask for. -/
  isScanned : String → Bool
  /-- How other files are loaded while it goes on. -/
  loader : String → Loading Unit

def Place.frame (p : Place) (journal : List Change) : Frame :=
  ⟨p.file, p.source, p.imports, p.start, journal⟩

def Place.owner (p : Place) (d : Draft) : Owner :=
  ⟨p.file, d.journal⟩

def Place.progress (p : Place) (d : Draft) : Progress :=
  ⟨d.catalog, [p.frame d.journal]⟩

def Place.files (p : Place) : List String :=
  p.file :: p.outer.map Frame.file

/-- Whether an error comes from a record that is not live. -/
def LoadError.IsStale : LoadError → Prop
  | .staleRecord .. => True
  | .dependency _ e => e.IsStale
  | _ => False

/-- Whether an error is about a record that is not live or about another file. All others are about
what the file itself says. -/
def LoadError.IsForeign : LoadError → Prop
  | .staleRecord .. | .dependency .. => True
  | _ => False

theorem LoadError.not_isStale {e : LoadError} (h : ¬ e.IsForeign) : ¬ e.IsStale := by
  cases e with
  | staleRecord | dependency => exact absurd trivial h
  | _ => exact fun hstale => hstale

namespace Draft

/-- A draft after a record is stored. -/
def stored (d : Draft) {t : Table} (record : Record t) : Draft :=
  { d with
    catalog := d.catalog.insert record
    journal := .inserted t (d.catalog.next t) :: d.journal }

/-- A draft after a record is changed. -/
def changed (d : Draft) {t : Table} (id : Id t) (f : Record t → Record t) : Draft :=
  { d.accessed id with catalog := d.catalog.modify id f }

/-- A draft after a name is entered. -/
def entered (d : Draft) (h : Heading) (e : Entry h.table) : Draft :=
  { d with catalog := d.catalog.enter h e, journal := .registered h e.name :: d.journal }

/-- Every record that was read or changed by its handle was there. -/
def IsSafe (d : Draft) : Prop :=
  ∀ a ∈ d.accesses, a.live

theorem IsSafe.accessed {d : Draft} (h : d.IsSafe) {t : Table} {id : Id t}
    (hl : d.catalog.Live id) : (d.accessed id).IsSafe :=
  List.forall_mem_cons.mpr ⟨hl, h⟩

def Owns (d : Draft) {t : Table} (id : Id t) : Prop :=
  Change.inserted t id ∈ d.journal

/-- What a part of a build leaves as it was, where `rewritten` lists the records that it may change
and the names that it may enter. -/
structure Grows (rewritten : List Change) (d d' : Draft) : Prop where
  journal : d.journal ⊆ d'.journal
  kept : ∀ {t : Table} (id : Id t) (r : Record t), d.catalog.get? id = some r →
    Change.inserted t id ∉ rewritten → d'.catalog.get? id = some r
  live : ∀ {t : Table} (id : Id t), d.catalog.Live id → d'.catalog.Live id
  parsed : d.catalog.parsed ⊆ d'.catalog.parsed
  found : ∀ {h : Heading} {name : String} {e : Entry h.table},
    (d.catalog.registry.index h).find? name = some e →
    (d'.catalog.registry.index h).find? name = some e
  labelled : ∀ {t : Table} (id : Id t) (l : Label), d.catalog.label? id = some l →
    d'.catalog.label? id = some l
  unnamed : (∀ h name, Change.registered h name ∉ rewritten) →
    registrations d'.journal = registrations d.journal
  told : d.catalog.Told → d'.catalog.Told

variable {rewritten : List Change} {d d' d'' : Draft}

theorem Grows.refl (d : Draft) : d.Grows rewritten d :=
  ⟨fun _ h => h, fun _ _ h _ => h, fun _ h => h, fun _ h => h, fun h => h, fun _ _ h => h,
    fun _ => rfl, fun h => h⟩

theorem Grows.trans (h : d.Grows rewritten d') (h' : d'.Grows rewritten d'') :
    d.Grows rewritten d'' where
  journal := List.Subset.trans h.journal h'.journal
  kept id r hr hn := h'.kept id r (h.kept id r hr hn) hn
  live id hl := h'.live id (h.live id hl)
  parsed := List.Subset.trans h.parsed h'.parsed
  found he := h'.found (h.found he)
  labelled id l hl := h'.labelled id l (h.labelled id l hl)
  unnamed hn := (h'.unnamed hn).trans (h.unnamed hn)
  told ht := h'.told (h.told ht)

theorem Grows.accessed (d : Draft) {t : Table} (id : Id t) : d.Grows rewritten (d.accessed id) :=
  ⟨fun _ h => h, fun _ _ h _ => h, fun _ h => h, fun _ h => h, fun h => h, fun _ _ h => h,
    fun _ => rfl, fun h => h⟩

theorem Grows.weaken {more : List Change} (h : d.Grows rewritten d') (hm : rewritten ⊆ more) :
    d.Grows more d' :=
  { h with
    kept := fun id r hr hn => h.kept id r hr fun hc => hn (hm hc)
    unnamed := fun hn => h.unnamed fun k name hc => hn k name (hm hc) }

theorem Grows.owns (h : d.Grows rewritten d') {t : Table} {id : Id t} (hid : d.Owns id) :
    d'.Owns id :=
  h.journal hid

theorem Grows.entered {p : Place} (g : d.Grows rewritten d') {h : Heading} {name : String}
    {role : Role} {id : Id h.table} (he : d.catalog.Entered (p.owner d) h name role id) :
    d'.catalog.Entered (p.owner d') h name role id :=
  ⟨g.found he.found, g.journal he.registered, g.journal he.inserted, g.labelled id _ he.labelled⟩

theorem Grows.declares {p : Place} (g : d.Grows rewritten d') {h : Heading} {name : String}
    (hd : d.catalog.Declares (p.owner d) h name) : d'.catalog.Declares (p.owner d') h name := by
  obtain ⟨id, kind, target, id', hkind, htarget, he, he'⟩ := hd
  exact ⟨id, kind, target, id', hkind, htarget, g.entered he, g.entered he'⟩

theorem Owns.backed {t : Table} {id : Id t} (h : d.Owns id) : Backed d.catalog d.journal id :=
  Or.inl h

/-- A handle of the build's own may be stored later on, and so may a live one of a shared table. -/
theorem Grows.backed (h : d.Grows rewritten d') {t : Table} {id : Id t} (hid : d.Owns id) :
    Backed d'.catalog d'.journal id :=
  (h.owns hid).backed

theorem Grows.backed_of_live (h : d.Grows rewritten d') {t : Table} {id : Id t} (ht : t.IsShared)
    (hl : d.catalog.Live id) : Backed d'.catalog d'.journal id :=
  Or.inr ⟨ht, h.live id hl⟩

end Draft

namespace Draft

/-- The records of a draft match, and so will those of its build when it ends. -/
structure Matched (d : Draft) : Prop where
  catalog : d.catalog.Matched
  kin : d.catalog.Kin d.journal

/-- A record may be stored by a build. The class of a function has to be its own. -/
def Suits (d : Draft) : (t : Table) → Id t → Record t → Prop
  | .functions, _, f => f.IsUsable ∧ ∀ owner ∈ f.classId, d.Owns owner
  | t, id, r => d.catalog.Fits t id r

variable {d : Draft} {t : Table}

theorem Suits.fits {id : Id t} {r : Record t} (h : d.Suits t id r) : d.catalog.Fits t id r := by
  cases t with
  | functions => exact h.1
  | _ => exact h

theorem Matched.insert (h : d.Matched) (wf : d.catalog.WellFormed) {record : Record t}
    (hlive : ∀ ref ∈ references t record, d.catalog.Live ref.id)
    (hs : d.Suits t (d.catalog.next t) record) : (d.stored record).Matched := by
  refine ⟨h.catalog.insert wf hlive hs.fits, fun id hid => ?_⟩
  rcases List.mem_cons.mp hid with hnew | hold
  · cases hnew
    exact ⟨record, Catalog.get?_insert_next wf record, fun owner ho =>
      List.mem_cons_of_mem _ (hs.2 owner ho)⟩
  · obtain ⟨f, hf, howner⟩ := h.kin.insert wf record id hold
    exact ⟨f, hf, fun owner ho => List.mem_cons_of_mem _ (howner owner ho)⟩

theorem Matched.modify (h : d.Matched) {id : Id t} {f : Record t → Record t} {r : Record t}
    (hr : d.catalog.get? id = some r)
    (hrefs : ∀ ref ∈ references t (f r), ref ∈ references t r ∨ d.catalog.Live ref.id)
    (hfits : d.catalog.Fits t id (f r)) (hkept : ∀ r, Kept t r (f r)) :
    (d.changed id f).Matched :=
  ⟨h.catalog.modify hr hrefs hfits hkept, h.kin.modify hkept⟩

theorem Matched.register (h : d.Matched) (k : Heading) (e : Entry k.table) :
    (d.entered k e).Matched := by
  refine ⟨h.catalog.enter k e, fun id hid => ?_⟩
  obtain ⟨f, hf, howner⟩ := h.kin id (by simpa [Draft.entered] using hid)
  exact ⟨f, hf, fun owner ho => List.mem_cons_of_mem _ (howner owner ho)⟩

end Draft

/-- A record may be stored by a part of a build. A type may be one that its name stands for, if all
names are declared. -/
def Place.Allows (p : Place) (d : Draft) : (t : Table) → Record t → Prop
  | .types, r => d.catalog.Announced → d.catalog.Means (p.owner d) r
  | t, r => d.Matched → d.Suits t (d.catalog.next t) r

theorem Place.Allows.suits {p : Place} {d : Draft} {t : Table} {r : Record t} (h : p.Allows d t r)
    (hm : d.Matched) : d.Suits t (d.catalog.next t) r := by
  cases t with
  | types => trivial
  | _ => exact h hm

theorem Place.Allows.intends {p : Place} {d : Draft} {t : Table} {r : Record t} (h : p.Allows d t r)
    (ha : d.catalog.Announced) : d.catalog.Intends (p.owner d) t r := by
  cases t with
  | types => exact h ha
  | _ => trivial

/-- All builds of a catalog that were not there before are such as they are said to be. -/
def Catalog.Adds (admits : Build → Prop) (c c' : Catalog) : Prop :=
  ∀ b ∈ c'.builds, b ∈ c.builds ∨ admits b

theorem Catalog.Adds.refl {admits : Build → Prop} (c : Catalog) : c.Adds admits c :=
  fun _ hb => .inl hb

theorem Catalog.Adds.trans {admits : Build → Prop} {c c' c'' : Catalog} (h : c.Adds admits c')
    (h' : c'.Adds admits c'') : c.Adds admits c'' :=
  fun b hb => (h' b hb).elim (h b) .inr

/-- What a part of a build does next: it changes something of its own, or it has
another file loaded. -/
inductive Place.Turn (p : Place) : Draft → Draft → Prop
  | own {d d' : Draft} (loads : d'.loads = d.loads) (builds : d'.catalog.builds = d.catalog.builds)
      (ages : ∀ t i, d'.catalog.age t i = d.catalog.age t i) (matched : d.Matched → d'.Matched)
      (safe : d.IsSafe → d'.IsSafe) : Turn p d d'
  | load {d : Draft} {file : String} {c : Catalog} (sound : (p.progress d).Sound p.outer)
      (scanned : p.isScanned file) (answer : p.loader file d.catalog = .ok () c) :
      Turn p d (d.loaded file c)

abbrev Place.Turns (p : Place) : Draft → Draft → Prop :=
  Relation.ReflTransGen p.Turn

/-- How a part of a build fails: by itself, or as a file that it has loaded does. -/
inductive Place.Stops (p : Place) (d : Draft) : LoadError → Draft → Prop
  | own {e : LoadError} (own : ¬ e.IsForeign) : Stops p d e d
  | load {e : LoadError} {file : String} {c : Catalog} (sound : (p.progress d).Sound p.outer)
      (scanned : p.isScanned file) (answer : p.loader file d.catalog = .error e c) :
      Stops p d (.dependency p.file e) (d.loaded file c)

/-- One step of a part of a build, at which no other file is loaded. -/
structure Place.Takes (p : Place) (rewritten : List Change) (d d' : Draft) : Prop where
  step : Step p.outer (p.progress d) (p.progress d')
  builds : d'.catalog.builds = d.catalog.builds
  turn : p.Turn d d'
  grows : d.Grows rewritten d'

/-- A part of a build goes on without a failure. If all names are declared, then types are stored as
they are meant, and all names are declared again. -/
structure Place.Advances (p : Place) (d d' : Draft) : Prop where
  steps : Steps p.outer (p.progress d) (p.progress d')
  adds : d.catalog.Adds p.admits d'.catalog
  turns : p.Turns d d'
  meant : d.catalog.Announced →
    MeantSteps p.outer (p.progress d) (p.progress d') ∧ d'.catalog.Announced

/-- A part of a build goes on until it fails, and other builds that it asked for may fail before. It
may fail between entering a name and declaring it. -/
structure Place.Wanders (p : Place) (d : Draft) (e : LoadError) (d' : Draft) : Prop where
  moves : Moves p.outer (p.progress d) (p.progress d')
  adds : d.catalog.Adds p.admits d'.catalog
  told : d.catalog.Told → d'.catalog.Told
  stops : ∃ last, p.Turns d last ∧ p.Stops last e d'
  meant : d.catalog.Announced →
    MeantMoves p.outer (p.progress d) (p.progress d') ∧ d'.catalog.AnnouncedBeside p.file

namespace Place

variable {p : Place} {d d' d'' : Draft} {e : LoadError}

theorem Advances.refl (d : Draft) : p.Advances d d :=
  ⟨.refl, .refl d.catalog, .refl, fun ha => ⟨.refl, ha⟩⟩

theorem Advances.single {rewritten : List Change} (h : p.Takes rewritten d d')
    (hm : d.catalog.Announced → (p.progress d).Meant (p.progress d') ∧ d'.catalog.Announced) :
    p.Advances d d' where
  steps := .single h.step
  adds _ hmem := .inl (h.builds ▸ hmem)
  turns := .single h.turn
  meant ha := ⟨.single ⟨h.step, (hm ha).1⟩, (hm ha).2⟩

theorem Advances.accessed {t : Table} {id : Id t} (hl : d.catalog.Live id) :
    p.Advances d (d.accessed id) where
  steps := .refl
  adds := .refl d.catalog
  turns :=
    .single (.own rfl rfl (fun _ _ => rfl) (fun h => ⟨h.catalog, h.kin⟩) fun h => h.accessed hl)
  meant ha := ⟨.refl, ha⟩

theorem Advances.trans (h : p.Advances d d') (h' : p.Advances d' d'') : p.Advances d d'' where
  steps := h.steps.trans h'.steps
  adds := h.adds.trans h'.adds
  turns := h.turns.trans h'.turns
  meant ha := by
    obtain ⟨hsteps, ha'⟩ := h.meant ha
    obtain ⟨hsteps', ha''⟩ := h'.meant ha'
    exact ⟨hsteps.trans hsteps', ha''⟩

theorem Advances.moves (h : p.Advances d d') : Moves p.outer (p.progress d) (p.progress d') :=
  Steps.moves h.steps

/-- A part of a build goes on, and the next one fails. -/
theorem Advances.wanders {rewritten : List Change} (h : p.Advances d d') (hg : d.Grows rewritten d')
    (h' : p.Wanders d' e d'') : p.Wanders d e d'' where
  moves := h.moves.trans h'.moves
  adds := h.adds.trans h'.adds
  told ht := h'.told (hg.told ht)
  stops := by
    obtain ⟨last, hturns, hstops⟩ := h'.stops
    exact ⟨last, h.turns.trans hturns, hstops⟩
  meant ha := by
    obtain ⟨hsteps, ha'⟩ := h.meant ha
    obtain ⟨hmoves, hbeside⟩ := h'.meant ha'
    exact ⟨hsteps.moves.trans hmoves, hbeside⟩

/-- One error about the file itself is as good as another one. -/
theorem Wanders.replace {e' : LoadError} (h : p.Wanders d e d') (he : ¬ e.IsForeign)
    (he' : ¬ e'.IsForeign) : p.Wanders d e' d' := by
  obtain ⟨last, hturns, hstops⟩ := h.stops
  refine ⟨h.moves, h.adds, h.told, ⟨last, hturns, ?_⟩, h.meant⟩
  cases hstops with
  | own _ => exact .own he'
  | load _ _ _ => exact absurd trivial he

theorem Wanders.own (he : ¬ e.IsForeign) (d : Draft) : p.Wanders d e d :=
  ⟨.refl, .refl d.catalog, fun ht => ht, ⟨d, .refl, .own he⟩, fun ha => ⟨.refl, ha.beside _⟩⟩

/-- What a build does by itself, while it stores no type. -/
structure Strides (p : Place) (rewritten : List Change) (d d' : Draft) : Prop where
  steps : MeantSteps p.outer (p.progress d) (p.progress d')
  builds : d'.catalog.builds = d.catalog.builds
  turns : p.Turns d d'
  grows : d.Grows rewritten d'

variable {rewritten : List Change}

theorem Takes.strides (h : p.Takes rewritten d d') (hm : (p.progress d).Meant (p.progress d')) :
    p.Strides rewritten d d' :=
  ⟨.single ⟨h.step, hm⟩, h.builds, .single h.turn, h.grows⟩

theorem Strides.trans {more : List Change} (h : p.Strides rewritten d d')
    (h' : p.Strides more d' d'') : p.Strides (rewritten ++ more) d d'' where
  steps := h.steps.trans h'.steps
  builds := h'.builds.trans h.builds
  turns := h.turns.trans h'.turns
  grows := (h.grows.weaken (List.subset_append_left _ _)).trans
    (h'.grows.weaken (List.subset_append_right _ _))

theorem Strides.advances (h : p.Strides rewritten d d')
    (ha : d.catalog.Announced → d'.catalog.Announced) : p.Advances d d' :=
  ⟨h.steps.forget, fun _ hmem => .inl (h.builds ▸ hmem), h.turns, fun hd => ⟨h.steps, ha hd⟩⟩

/-- A build fails by itself after some steps. -/
theorem Strides.wanders (h : p.Strides rewritten d d') (he : ¬ e.IsForeign)
    (hb : d.catalog.Announced → d'.catalog.AnnouncedBeside p.file) : p.Wanders d e d' where
  moves := h.steps.moves.forget
  adds _ hmem := .inl (h.builds ▸ hmem)
  told := h.grows.told
  stops := ⟨d', h.turns, .own he⟩
  meant ha := ⟨h.steps.moves, hb ha⟩

end Place

/-- What a run of `m` from `d` comes to. -/
def Runs {α : Type} (p : Place) (rewritten : List Change) (d : Draft) (m : Building α)
    (Q : α → Draft → Prop) : Prop :=
  (p.progress d).Sound p.outer →
    match m d with
    | .ok a d' => p.Advances d d' ∧ d.Grows rewritten d' ∧ Q a d'
    | .error e d' => p.Wanders d e d' ∧ ¬ e.IsStale

/-- Loading from a site does what the machine does while the build at a place stands still, and ends
with the file parsed or under way. -/
structure Place.Hosts (p : Place) (s : Site) : Prop where
  file_eq : s.file = p.file
  scanned_eq : s.isScanned = p.isScanned
  load_eq : s.load = p.loader
  load : ∀ (d : Draft) (name : String), (p.progress d).Sound p.outer →
    match s.load name d.catalog with
    | .ok _ c => Steps (p.frame d.journal :: p.outer) ⟨d.catalog, []⟩ ⟨c, []⟩ ∧
        d.catalog.Adds p.admits c ∧ (d.catalog.Told → c.Told) ∧
        (d.catalog.Announced →
          MeantSteps (p.frame d.journal :: p.outer) ⟨d.catalog, []⟩ ⟨c, []⟩ ∧ c.Announced) ∧
        (name ∈ c.parsed ∨ name ∈ p.files)
    | .error e c => Moves (p.frame d.journal :: p.outer) ⟨d.catalog, []⟩ ⟨c, []⟩ ∧
        d.catalog.Adds p.admits c ∧ (d.catalog.Told → c.Told) ∧
        (d.catalog.Announced →
          MeantMoves (p.frame d.journal :: p.outer) ⟨d.catalog, []⟩ ⟨c, []⟩ ∧ c.Announced) ∧
        ¬ e.IsStale

namespace Runs

variable {α β : Type} {p : Place} {rewritten : List Change} {d : Draft} {Q : α → Draft → Prop}

theorem pure {a : α} (h : Q a d) : Runs p rewritten d (Pure.pure a) Q :=
  fun _ => ⟨.refl d, .refl d, h⟩

theorem fail {e : LoadError} (h : ¬ e.IsForeign) : Runs p rewritten d (Building.fail e) Q :=
  fun _ => ⟨.own h d, LoadError.not_isStale h⟩

theorem bind_of_subset {m : Building α} {f : α → Building β} {fewer : List Change}
    {R : β → Draft → Prop} (hsub : fewer ⊆ rewritten) (hm : Runs p fewer d m Q)
    (hf : ∀ a d', d.Grows fewer d' → Q a d' → Runs p rewritten d' (f a) R) :
    Runs p rewritten d (m >>= f) R := by
  intro hs
  have hrun := hm hs
  change match EStateM.bind m f d with | .ok a d' => _ | .error e d' => _
  unfold EStateM.bind
  cases hmd : m d with
  | error e d' =>
    rw [hmd] at hrun
    exact hrun
  | ok a d' =>
    rw [hmd] at hrun
    obtain ⟨hsteps, hgrows, hq⟩ := hrun
    have hnext := hf a d' hgrows hq (Moves.sound hsteps.moves hs)
    dsimp only
    cases hfa : f a d' with
    | error e d'' =>
      rw [hfa] at hnext
      exact ⟨hsteps.wanders hgrows hnext.1, hnext.2⟩
    | ok b d'' =>
      rw [hfa] at hnext
      exact ⟨hsteps.trans hnext.1, (hgrows.weaken hsub).trans hnext.2.1, hnext.2.2⟩

/-- The first part rewrites nothing. -/
theorem bind {m : Building α} {f : α → Building β} {R : β → Draft → Prop} (hm : Runs p [] d m Q)
    (hf : ∀ a d', d.Grows [] d' → Q a d' → Runs p rewritten d' (f a) R) :
    Runs p rewritten d (m >>= f) R :=
  bind_of_subset (List.nil_subset _) hm hf

/-- Both parts may rewrite the same records. -/
theorem bind_same {m : Building α} {f : α → Building β} {R : β → Draft → Prop}
    (hm : Runs p rewritten d m Q)
    (hf : ∀ a d', d.Grows rewritten d' → Q a d' → Runs p rewritten d' (f a) R) :
    Runs p rewritten d (m >>= f) R :=
  bind_of_subset (List.Subset.refl _) hm hf

theorem weaken_of_subset {m : Building α} {fewer : List Change} {R : α → Draft → Prop}
    (hsub : fewer ⊆ rewritten) (hm : Runs p fewer d m Q)
    (hQ : ∀ a d', d.Grows fewer d' → Q a d' → R a d') : Runs p rewritten d m R := by
  intro hs
  have hrun := hm hs
  cases hmd : m d with
  | error e d' =>
    rw [hmd] at hrun
    exact hrun
  | ok a d' =>
    rw [hmd] at hrun
    exact ⟨hrun.1, hrun.2.1.weaken hsub, hQ a d' hrun.2.1 hrun.2.2⟩

theorem weaken {m : Building α} {R : α → Draft → Prop} (hm : Runs p [] d m Q)
    (hQ : ∀ a d', d.Grows [] d' → Q a d' → R a d') : Runs p rewritten d m R :=
  weaken_of_subset (List.nil_subset _) hm hQ

theorem imp {m : Building α} {R : α → Draft → Prop} (hm : Runs p rewritten d m Q)
    (hQ : ∀ a d', d.Grows rewritten d' → Q a d' → R a d') : Runs p rewritten d m R :=
  weaken_of_subset (List.Subset.refl _) hm hQ

/-- What the second part changes may depend on the result of the first. -/
theorem bind_exists {m : Building α} {f : α → Building β} {fewer : List Change}
    {R : β → Draft → Prop} (hm : Runs p fewer d m Q)
    (hf : ∀ a d', d.Grows fewer d' → Q a d' → ∃ more, Runs p more d' (f a) R) :
    ∃ more, Runs p more d (m >>= f) R := by
  by_cases hs : (p.progress d).Sound p.outer
  · have hrun := hm hs
    cases hmd : m d with
    | error e d' =>
      rw [hmd] at hrun
      refine ⟨[], fun _ => ?_⟩
      have he : (m >>= f) d = .error e d' := by
        change EStateM.bind m f d = _
        rw [EStateM.bind, hmd]
      rw [he]
      exact hrun
    | ok a d' =>
      rw [hmd] at hrun
      obtain ⟨more, hnext⟩ := hf a d' hrun.2.1 hrun.2.2
      have hfirst : Runs p fewer d m fun b d'' => b = a ∧ d'' = d' := by
        intro _
        rw [hmd]
        exact ⟨hrun.1, hrun.2.1, rfl, rfl⟩
      refine ⟨fewer ++ more, bind_of_subset (List.subset_append_left _ _) hfirst ?_⟩
      rintro b d'' _ ⟨rfl, rfl⟩
      exact weaken_of_subset (List.subset_append_right _ _) hnext fun _ _ _ h => h
  · exact ⟨[], fun h => absurd h hs⟩

/-- Records that were not live before cannot have been changed. -/
theorem fresh {m : Building α} {more : List Change} (hm : Runs p more d m Q)
    (hfresh : ∀ {t : Table} (id : Id t), d.catalog.Live id → Change.inserted t id ∉ more)
    (hnames : ∀ h name, Change.registered h name ∉ more) : Runs p rewritten d m Q := by
  intro hs
  have hrun := hm hs
  cases hmd : m d with
  | error e d' =>
    rw [hmd] at hrun
    exact hrun
  | ok a d' =>
    rw [hmd] at hrun
    obtain ⟨hsteps, hgrows, hq⟩ := hrun
    refine ⟨hsteps, { hgrows with
      kept := fun id r hr _ => ?_, unnamed := fun _ => ?_ }, hq⟩
    · exact hgrows.kept id r hr (hfresh id (Catalog.live_of_get? hr))
    · exact hgrows.unnamed hnames

/-- The account of the state may be used in a run. -/
theorem sound {m : Building α} (hm : (p.progress d).Sound p.outer → Runs p rewritten d m Q) :
    Runs p rewritten d m Q :=
  fun hs => hm hs hs

theorem guarded {cond : Prop} [Decidable cond] {e : LoadError} {k : Unit → Building α}
    (he : ¬ e.IsForeign) (hk : ¬ cond → Runs p rewritten d (k ()) Q) :
    Runs p rewritten d (if cond then Building.fail e >>= k else k ()) Q := by
  split
  · exact bind (Q := fun _ _ => False) (fail he) fun _ _ _ h => h.elim
  · next hc => exact hk hc

end Runs

theorem live_of_backed {p : Place} {d : Draft} (hs : (p.progress d).Sound p.outer)
    {t : Table} {id : Id t} (h : Backed d.catalog d.journal id) : d.catalog.Live id :=
  Accounted.live_of_backed (o := (p.frame d.journal).owner) hs h

theorem live_of_owns {p : Place} {d : Draft} (hs : (p.progress d).Sound p.outer)
    {t : Table} {id : Id t} (h : d.Owns id) : d.catalog.Live id :=
  live_of_backed hs h.backed

section

variable {p : Place} {d : Draft}

theorem takes_insert (hs : (p.progress d).Sound p.outer) {t : Table} (record : Record t)
    (hb : AllBacked d.catalog d.journal record)
    (hm : d.Matched → d.Suits t (d.catalog.next t) record) : p.Takes [] d (d.stored record) := by
  have wf : d.catalog.WellFormed := Accounted.wellFormed hs
  have hstep : Step p.outer (p.progress d) (p.progress (d.stored record)) := .insert record hb
  have hmatched (h : d.Matched) :=
    h.insert wf (fun ref href => live_of_backed hs (hb ref href)) (hm h)
  refine ⟨hstep, rfl, .own rfl rfl (Catalog.age_insert _ _) hmatched fun h => h, ?_⟩
  exact {
    journal := fun _ h => List.mem_cons_of_mem _ h
    kept := fun id r hr _ =>
    (Catalog.get?_insert_of_live wf record (Catalog.live_of_get? hr)).trans hr
    live := fun id hl => by
      rwa [Draft.stored, Catalog.Live, Catalog.get?_insert_of_live wf record hl]
    parsed := fun _ h => h
    found := fun h => h
    labelled := fun id l hl => by
      rwa [Draft.stored, Catalog.label?,
        Catalog.get?_insert_of_live wf record (Catalog.live_of_label? hl)]
    unnamed := fun _ => rfl
    told := fun ht => ht.moves (.single (.step hstep)) hs rfl (ht.named.insert wf record) }

theorem meant_stored (wf : d.catalog.WellFormed) {t : Table} {record : Record t}
    (h : d.catalog.Intends (p.owner d) t record) :
    (p.progress d).Meant (p.progress (d.stored record)) :=
  Progress.meant_insert wf (p.frame d.journal) record h

theorem insert_runs {t : Table} {record : Record t} (hb : AllBacked d.catalog d.journal record)
    (hm : p.Allows d t record) :
    Runs p [] d (Building.insert record)
      fun id d' => d'.Owns id ∧ d'.catalog.get? id = some record ∧ id = d.catalog.next t ∧
        d'.catalog.Unlisted id := by
  intro hs
  have wf : d.catalog.WellFormed := Accounted.wellFormed hs
  have htakes := takes_insert hs record hb hm.suits
  refine ⟨.single htakes fun ha => ⟨meant_stored wf (hm.intends ha), ?_⟩, htakes.grows,
    List.mem_cons_self, Catalog.get?_insert_next wf record, rfl, Accounted.next_unlisted hs t⟩
  exact ha.mono (fun _ _ _ he => .inl he) htakes.grows.found htakes.grows.labelled

theorem modify_eq {t : Table} {id : Id t} (hl : d.catalog.Live id) (f : Record t → Record t) :
    Building.modify id f d = .ok () (d.changed id f) := by
  obtain ⟨r, hr⟩ := Catalog.exists_of_live hl
  simp [Building.modify, Draft.changed, hr]

/-- What is changed about a record is not what its entry repeats, and not what others say of it. -/
theorem modify_runs {t : Table} {id : Id t} {f : Record t → Record t} (own : d.Owns id)
    (hb : ∀ r, d.catalog.get? id = some r → NewlyBacked d.catalog d.journal r (f r))
    (hf : ∀ r, label t (f r) = label t r) (hk : ∀ r, Kept t r (f r))
    (hm : d.Matched → ∀ r, d.catalog.get? id = some r → d.catalog.Fits t id (f r)) :
    Runs p [.inserted t id] d (Building.modify id f)
      fun _ d' => ∃ r, d.catalog.get? id = some r ∧ d'.catalog.get? id = some (f r) := by
  intro hs
  obtain ⟨r, hr⟩ := Catalog.exists_of_live (live_of_owns hs own)
  rw [modify_eq (Catalog.live_of_get? hr)]
  have hstep : Step p.outer (p.progress d) (p.progress (d.changed id f)) :=
    .modify f own hr (hb r hr)
  have hmatched (h : d.Matched) := h.modify hr
    (fun ref href => (hb r hr ref href).imp_right (live_of_backed hs)) (hm h r hr) hk
  have hgrows : d.Grows [.inserted t id] (d.changed id f) := {
    journal := fun _ h => h
    kept := fun other r hr hn => by
      rwa [Draft.changed, Catalog.get?_modify_of_ne _ f (by simpa using hn)]
    live := fun other hl => (Catalog.live_modify_iff _ f).mpr hl
    parsed := fun _ h => h
    found := fun h => h
    labelled := fun other l hl => (Catalog.label?_modify _ hf other).trans hl
    unnamed := fun _ => rfl
    told := fun ht => ht.moves (.single (.step hstep)) hs rfl (ht.named.modify hf) }
  have hsafe (h : d.IsSafe) : (d.changed id f).IsSafe := h.accessed (Catalog.live_of_get? hr)
  have htakes : p.Takes [.inserted t id] d (d.changed id f) :=
    ⟨hstep, rfl, .own rfl rfl (Catalog.age_modify _ _ _) hmatched hsafe, hgrows⟩
  refine ⟨.single htakes fun ha => ⟨Progress.meant_modify id hk, ?_⟩, hgrows, r, hr, ?_⟩
  · exact ha.mono (fun _ _ _ he => .inl he) hgrows.found hgrows.labelled
  · simp [Draft.changed, Catalog.get?_modify_self, hr]

theorem fetch_runs {t : Table} {id : Id t} (hl : d.catalog.Live id) :
    Runs p [] d (Building.fetch id) fun r _ => d.catalog.get? id = some r := by
  intro _
  obtain ⟨r, hr⟩ := Catalog.exists_of_live hl
  have hrun : Building.fetch id d = .ok r (d.accessed id) := by simp [Building.fetch, hr]
  rw [hrun]
  exact ⟨.accessed hl, .accessed d id, hr⟩

theorem registry_runs : Runs p [] d Building.registry fun r d' => d' = d ∧ r = d.catalog.registry :=
  fun _ => ⟨.refl d, .refl d, rfl, rfl⟩

theorem catalog_runs : Runs p [] d Building.catalog fun c d' => d' = d ∧ c = d.catalog :=
  fun _ => ⟨.refl d, .refl d, rfl, rfl⟩

theorem takes_register (hs : (p.progress d).Sound p.outer) {h : Heading} {name : String}
    {id : Id h.table} {role : Role} (free : (d.catalog.registry.index h).find? name = none)
    (own : d.Owns id) (hlabel : d.catalog.label? id = some ⟨name, p.file, role⟩)
    (hnew : d.catalog.Unlisted id) :
    p.Takes [.registered h name] d (d.entered h ⟨name, p.file, id⟩) := by
  have hext := Catalog.Extends.enter d.catalog h ⟨name, p.file, id⟩
  have hstep : Step p.outer (p.progress d) (p.progress (d.entered h ⟨name, p.file, id⟩)) :=
    .register free own hnew
  refine ⟨hstep, rfl, .own rfl rfl (fun _ _ => rfl) (fun hm => hm.register h _) fun h => h, ?_⟩
  exact {
    journal := fun _ h => List.mem_cons_of_mem _ h
    kept := fun _ _ h _ => h
    live := fun _ h => h
    parsed := fun _ h => h
    found := hext.find?
    labelled := fun _ _ h => h
    unnamed := fun hn => absurd (List.mem_singleton_self _) (hn h name)
    told := fun ht => ht.moves (.single (.step hstep)) hs rfl (ht.named.enter hlabel) }

section

variable {s : Site} {h : Heading} {name : String} {id : Id h.table} {kind : DeclarationKind}
  {target : DeclarationTarget}

theorem register_eq_ok (free : (d.catalog.registry.index h).find? name = none) :
    Building.register s h name id d = .ok () (d.entered h ⟨name, s.file, id⟩) := by
  rw [Building.register, free]
  rfl

theorem register_eq_error {e : Entry h.table}
    (taken : (d.catalog.registry.index h).find? name = some e) :
    Building.register s h name id d = .error (.redefinition name e.file) d := by
  rw [Building.register, taken]

/-- The declaration of a name is stored before it is found out whether the name is free. -/
theorem declare_eq : Building.declare s name kind target d =
    Building.register s .declarations name (d.catalog.next .declarations)
      (d.stored (t := .declarations) ⟨name, s.file, kind, target⟩) :=
  rfl

theorem register_declare_taken {e : Entry h.table}
    (taken : (d.catalog.registry.index h).find? name = some e) :
    (Building.register s h name id >>= fun _ => Building.declare s name kind target) d =
      .error (.redefinition name e.file) d := by
  simp [bind, EStateM.bind, register_eq_error taken]

theorem register_declare_free (free : (d.catalog.registry.index h).find? name = none) :
    (Building.register s h name id >>= fun _ => Building.declare s name kind target) d =
      Building.declare s name kind target (d.entered h ⟨name, s.file, id⟩) := by
  simp [bind, EStateM.bind, register_eq_ok free]

end

/-- An entry that is new is the only one that still has to be declared. -/
theorem Catalog.Announced.enter {c c' : Catalog} (ha : c.Announced) {h : Heading}
    {e : Entry h.table} (hentries : ∀ k, k ≠ .declarations → c'.entries k = (c.enter h e).entries k)
    (hfound : ∀ {k : Heading} {name : String} {e : Entry k.table},
      (c.registry.index k).find? name = some e → (c'.registry.index k).find? name = some e)
    (hlabel : ∀ {t : Table} (id : Id t) (l : Label), c.label? id = some l → c'.label? id = some l) :
    c'.AnnouncedBeside e.file ∧ (c'.Announces h e → c'.Announced) := by
  have hold : ∀ k, k ≠ .declarations → ∀ x ∈ c'.entries k, c'.Announces k x ∨
    Entry.file x = e.file ∧
      (c'.Announces h e → c'.Announces k x) := by
    intro k hk x hx
    rw [hentries k hk] at hx
    by_cases hkh : h = k
    · subst hkh
      rw [Catalog.entries_enter_self] at hx
      rcases List.mem_append.mp hx with hx | hx
      · exact .inl ((ha h hk x hx).mono (fun _ => hfound) hlabel)
      · cases List.mem_singleton.mp hx
        exact .inr ⟨rfl, fun he => he⟩
    · rw [Catalog.entries_enter_of_ne c e hkh] at hx
      exact .inl ((ha k hk x hx).mono (fun _ => hfound) hlabel)
  refine ⟨fun k hk x hx hne => ?_, fun he k hk x hx => ?_⟩
  · exact (hold k hk x hx).resolve_right fun hnew => hne hnew.1
  · exact (hold k hk x hx).elim (fun h => h) fun hnew => hnew.2 he

/-- The last step of declaring a name that is entered. If it fails, the name is entered
and not declared. -/
theorem register_declaration {s : Site} (hs : p.Hosts s) {d₂ : Draft} {h : Heading} {name : String}
    {id : Id h.table} {id' : Id .declarations} {kind : DeclarationKind} {target : DeclarationTarget}
    (hsound : (p.progress d₂).Sound p.outer) (hstrides : p.Strides [.registered h name] d d₂)
    (hk : h.declarationKind? = some kind) (ht : h.target? id = some target) (own : d₂.Owns id')
    (hlabel : d₂.catalog.label? id' = some ⟨name, p.file, .declaration kind target⟩)
    (hnew : d₂.catalog.Unlisted id')
    (hentered : d₂.catalog.Entered (p.owner d₂) h name (.listed h) id)
    (hentries : ∀ k, k ≠ .declarations →
      d₂.catalog.entries k = (d.catalog.enter h ⟨name, p.file, id⟩).entries k) :
    match Building.register s .declarations name id' d₂ with
    | .ok _ d' => p.Advances d d' ∧ d.Grows (declaring h name) d' ∧
        d'.catalog.DeclaresAs (p.owner d') h name target ∧
        registrations d'.journal = registrations d₂.journal ++ [.registered .declarations name]
    | .error e d' => p.Wanders d e d' ∧ ¬ e.IsStale := by
  cases hfree : (d₂.catalog.registry.index .declarations).find? name with
  | some e =>
    rw [register_eq_error (h := .declarations) hfree]
    have hforeign : ¬ (LoadError.redefinition name e.file).IsForeign := fun h => h
    refine ⟨hstrides.wanders hforeign fun ha => ?_, LoadError.not_isStale hforeign⟩
    exact (ha.enter hentries hstrides.grows.found hstrides.grows.labelled).1
  | none =>
    rw [register_eq_ok (h := .declarations) hfree, hs.file_eq]
    have htakes := takes_register (h := .declarations) hsound hfree own hlabel hnew
    have hall :=
      hstrides.trans
        (htakes.strides (Progress.meant_of_kept (fun _ _ hr => hr) fun _ hb => .inl hb))
    have hfound := find?_enter_self (h := .declarations) (e := ⟨name, p.file, id'⟩) hfree
    refine ⟨hall.advances fun ha => ?_, hall.grows,
      ⟨id, kind, id', hk, ht, htakes.grows.entered hentered,
      hfound, List.mem_cons_self, htakes.grows.owns own, hlabel⟩, registrations_registered _ _ _⟩
    have hsame (k : Heading) (hk : k ≠ .declarations) :=
      (Catalog.entries_enter_of_ne d₂.catalog (h := .declarations) ⟨name, p.file, id'⟩
        hk.symm).trans
        (hentries k hk)
    exact (ha.enter hsame hall.grows.found hall.grows.labelled).2
      ⟨_, kind, target, hfound, rfl, hk, ht, hlabel⟩

/-- A name is entered for a record that carries it, and then declared. That it is free as a
declaration is only found out after it is entered. -/
theorem declare_runs {s : Site} (hs : p.Hosts s) {h : Heading} {name : String} {id : Id h.table}
    {kind : DeclarationKind} {target : DeclarationTarget} (hk : h.declarationKind? = some kind)
    (ht : h.target? id = some target) (own : d.Owns id)
    (hlabel : d.catalog.label? id = some ⟨name, p.file, .listed h⟩) (hnew : d.catalog.Unlisted id) :
    Runs p (declaring h name) d
      (Building.register s h name id >>= fun _ => Building.declare s name kind target)
      fun _ d' => d'.catalog.DeclaresAs (p.owner d') h name target ∧
        registrations d'.journal = registrations d.journal ++ declaring h name := by
  intro hsound
  cases hfree : (d.catalog.registry.index h).find? name with
  | some e =>
    rw [register_declare_taken hfree]
    exact ⟨.own (e := .redefinition name e.file) (fun h => h) d, fun hstale => hstale⟩
  | none =>
    rw [register_declare_free hfree, declare_eq, hs.file_eq]
    -- the name is entered, and its declaration is stored
    have hentered := takes_register hsound hfree own hlabel hnew
    have hsound₁ := hentered.step.sound hsound
    have wf : (d.entered h ⟨name, p.file, id⟩).catalog.WellFormed := Accounted.wellFormed hsound₁
    have htarget : (d.entered h ⟨name, p.file, id⟩).Owns target.reference.id := by
      rw [Heading.reference_of_target? ht]
      exact hentered.grows.owns own
    let record : DeclarationRecord := ⟨name, p.file, kind, target⟩
    have hstored := takes_insert (t := .declarations) hsound₁ record
      (by simpa [record, AllBacked, references] using htarget.backed) fun _ => trivial
    have hstrides :=
      (hentered.strides (Progress.meant_of_kept (fun _ _ hr => hr) fun _ hb => .inl hb)).trans
      (hstored.strides (meant_stored wf trivial))
    have hdeclared :
      ((d.entered h ⟨name, p.file, id⟩).stored (t := .declarations) record).catalog.label?
        ((d.entered h ⟨name, p.file, id⟩).catalog.next .declarations) =
          some ⟨name, p.file, .declaration kind target⟩ := by
      rw [Draft.stored, Catalog.label?, Catalog.get?_insert_next wf]
      rfl
    have hlast :=
      register_declaration hs (hstored.step.sound hsound₁) hstrides hk ht List.mem_cons_self
      hdeclared (Accounted.next_unlisted hsound₁ .declarations)
      (hstored.grows.entered ⟨find?_enter_self hfree, List.mem_cons_self,
        List.mem_cons_of_mem _ own, hlabel⟩)
      fun _ _ => rfl
    have hnames : registrations
      ((d.entered h ⟨name, p.file, id⟩).stored (t := .declarations) record).journal =
        registrations d.journal ++ [.registered h name] :=
      (hstored.grows.unnamed (by simp)).trans (registrations_registered h name d.journal)
    rw [hnames, List.append_assoc] at hlast
    generalize Building.register s .declarations name _ _ = result at hlast ⊢
    cases result with
    | ok _ _ => exact hlast
    | error _ _ => exact hlast

theorem load_runs {s : Site} (hs : p.Hosts s) {name : String} (hname : s.isScanned name) :
    Runs p [] d (Building.load s name)
      fun _ d' => name ∈ d'.catalog.parsed ∨ name ∈ p.files := by
  intro hsound
  have hload := hs.load d name hsound
  have hscanned : p.isScanned name := hs.scanned_eq ▸ hname
  unfold Building.load
  cases hr : s.load name d.catalog with
  | error e c =>
    rw [hr] at hload
    have hstops : p.Stops d (.dependency s.file e) (d.loaded name c) := by
      rw [hs.file_eq]
      exact .load hsound hscanned (hs.load_eq ▸ hr)
    obtain ⟨hmoves, hadds, htold, hmeant, hstale⟩ := hload
    refine ⟨⟨Moves.lift hmoves, hadds, htold, ⟨d, .refl, hstops⟩, fun ha => ?_⟩, hstale⟩
    exact ⟨MeantMoves.lift (hmeant ha).1, (hmeant ha).2.beside p.file⟩
  | ok _ c =>
    rw [hr] at hload
    obtain ⟨hsteps, hadds, htold, hmeant, hname⟩ := hload
    have hext := Moves.extends (Steps.moves hsteps) hsound
    refine ⟨⟨Steps.lift hsteps, hadds, .single (.load hsound hscanned (hs.load_eq ▸ hr)), fun ha =>
      ?_⟩, ?_, hname⟩
    · exact ⟨MeantSteps.lift (hmeant ha).1, (hmeant ha).2⟩
    exact {
      journal := fun _ h => h
      kept := fun id r hr _ => hext.kept id r hr
      live := fun id hl => hext.live hl
      parsed := hext.parsed_prefix.subset
      found := hext.find?
      labelled := fun _ _ hl => hext.label? hl
      unnamed := fun _ => rfl
      told := htold }

end

end InterfaceCatalog
