import InterfaceCatalog.Proofs.Build.Attempt
import InterfaceCatalog.Proofs.Build.Family

namespace InterfaceCatalog

open Building

/-- What stands at the bottom of the failures of dependencies. -/
def LoadError.cause : LoadError → LoadError
  | .dependency _ e => e.cause
  | e => e

namespace Sources.Family

variable {src : Sources} (fam : src.Family)

/-- An error that comes from a class that is not entered yet. Its file is one that the given file
leads to, or has not got past its imports. -/
def Blames (early : List String) (name : String) (e : LoadError) : Prop :=
  ∃ x, fam.Loops x ∧ (fam.Reaches name x ∨ x ∈ early) ∧ e.cause = .unresolvedClass (fam.className x)

/-- What loading a member comes to. -/
def Loads (loading early : List String) (name : String) (c : Catalog) :
    EStateM.Result LoadError Catalog Unit → Prop
  | .ok _ c' => fam.Intact c' loading early ∧ (name ∈ c'.parsed ∨ name ∈ loading) ∧
      (∀ f ∈ c'.parsed, f ∈ c.parsed ∨ fam.Reaches name f) ∧
      (name ∈ c.parsed ∨ name ∈ loading ∨ ¬ fam.LoopsBeside loading name)
  | .error e _ => fam.Blames early name e

/-- A site of a member, where the other members are loaded as they should be. -/
structure Hosts (p : Place) (s : Site) : Prop extends p.Hosts s where
  member : p.file ∈ fam.members
  kind : s.kind = .interface
  settings : s.settings = src.settings
  isScanned : s.isScanned = src.files.contains
  loads : ∀ (d : Draft) (early : List String) (f : String), (p.progress d).Sound p.outer →
    f ∈ fam.members → fam.Intact d.catalog p.files early →
    (f ∉ p.files → ∀ m ∈ early, fam.Awaits [m] m f) →
    fam.Loads p.files early f d.catalog (s.load f d.catalog)

/-- What holds throughout the build of a member. -/
structure Underway (p : Place) (c₀ : Catalog) (early : List String) (d : Draft) : Prop where
  intact : fam.Intact d.catalog p.files early
  reached : ∀ x ∈ d.catalog.parsed, x ∈ c₀.parsed ∨ fam.Reaches p.file x

/-- A file that is needed is parsed or under way. -/
def Met (p : Place) (d : Draft) (f : String) : Prop :=
  f ∈ d.catalog.parsed ∨ f ∈ p.files

variable {fam} {p : Place} {s : Site} {c₀ : Catalog} {d : Draft} {early : List String}

theorem Blames.of_needs {early' : List String} {name f : String} {e : LoadError}
    (h : fam.Blames early' f e) (hn : fam.Needs name f) (hsub : early' ⊆ name :: early) :
    fam.Blames early name e := by
  obtain ⟨x, hx, hfrom, hcause⟩ := h
  refine ⟨x, hx, ?_, hcause⟩
  rcases hfrom with hr | hm
  · exact .inl (.head hn hr)
  · rcases List.mem_cons.mp (hsub hm) with rfl | hm
    · exact .inl .refl
    · exact .inr hm

theorem Hosts.importedFile?_eq (hs : fam.Hosts p s) (name : String) :
    importedFile? s name = src.imported? name := by
  rw [importedFile?, hs.settings, hs.isScanned]
  rfl

theorem Hosts.classFile_eq (hs : fam.Hosts p s) (name : String) :
    Building.classFile s name = src.classFile name := by
  rw [Building.classFile, hs.settings]
  rfl

theorem contains_of_mem {m : String} (hm : m ∈ fam.members) : src.files.contains m := by
  obtain ⟨file, hfile, -⟩ := fam.known m hm
  rw [FileTable.contains, hfile]
  rfl

theorem Met.mono {rewritten : List Change} {d' : Draft} {f : String} (h : Met p d f)
    (g : d.Grows rewritten d') : Met p d' f :=
  h.imp_left fun hp => g.parsed hp

/-- A member that the build needs is loaded. -/
theorem load_attempts {early' : List String} {f : String} (hs : fam.Hosts p s)
    (hsub : early' ⊆ p.file :: early) (hn : fam.Needs p.file f)
    (hawaits : f ∉ p.files → ∀ m ∈ early', fam.Awaits [m] m f) (hu : fam.Underway p c₀ early' d) :
    Attempts p d (Building.load s f) (fun _ d' => fam.Underway p c₀ early' d' ∧ Met p d' f)
      (fam.Blames early p.file) := by
  intro hsound
  have hload := hs.loads d early' f hsound hn.right_mem hu.intact hawaits
  unfold Building.load
  cases hr : s.load f d.catalog with
  | error e c =>
    rw [hr] at hload
    exact Blames.of_needs hload hn hsub
  | ok u c =>
    rw [hr] at hload
    obtain ⟨hintact, hmet, hreached, -⟩ := hload
    refine ⟨⟨hintact, fun x hx => ?_⟩, hmet⟩
    rcases hreached x hx with hx | hx
    · exact hu.reached x hx
    · exact .inr (.head hn hx)

theorem awaits_next (hawaits : ∀ m ∈ early, fam.Awaits [m] m p.file)
    (hsub : early ⊆ p.files) {f : String} (hn : fam.Needs p.file f) (hf : f ∉ p.files) :
    ∀ m ∈ early, fam.Awaits [m] m f := by
  intro m hm
  refine (hawaits m hm).tail hn ?_
  rw [List.mem_singleton]
  rintro rfl
  exact hf (hsub hm)

section

variable (hs : fam.Hosts p s) (hawaits : ∀ m ∈ early, fam.Awaits [m] m p.file)

include hs hawaits

/-- The imports of a member are loaded before it enters its class. -/
theorem importAll_attempts (hu : fam.Underway p c₀ (p.file :: early) d) :
    Attempts p d (each (importFile s) (fam.importsOf p.file))
      (fun _ d' => fam.Underway p c₀ (p.file :: early) d' ∧ ∀ f, fam.Imports p.file f → Met p d' f)
      (fam.Blames early p.file) := by
  have hstep : ∀ name ∈ fam.importsOf p.file, ∀ d', fam.Underway p c₀ (p.file :: early) d' →
      Attempts p d' (importFile s name) (fun _ d'' => fam.Underway p c₀ (p.file :: early) d'' ∧
        ∀ f, src.imported? name = some f → Met p d'' f) (fam.Blames early p.file) := by
    intro name hname d' hu'
    obtain ⟨f, hf, hfile⟩ := fam.imported p.file hs.member name hname
    have himports : fam.Imports p.file f := ⟨hs.member, hf, name, hname, hfile⟩
    have hsub := hu'.intact.early_subset
    have hload : importFile s name = Building.load s f := by
      rw [importFile, hs.importedFile?_eq, hfile]
    rw [hload]
    refine (load_attempts hs (List.Subset.refl _) (.inl himports) (fun hout m hm => ?_) hu').imp
      fun _ _ h => ⟨h.1, ?_⟩
    · rcases List.mem_cons.mp hm with rfl | hm
      · refine ⟨f, himports, ?_, .refl⟩
        rw [List.mem_singleton]
        rintro rfl
        exact hout List.mem_cons_self
      · exact awaits_next hawaits (fun x hx => hsub (List.mem_cons_of_mem _ hx))
          (.inl himports) hout m hm
    · intro f' hf'
      cases hfile.symm.trans hf'
      exact h.2
  refine (Attempts.each (P := fun name (_ : Unit) d' => ∀ f, src.imported? name = some f →
    Met p d' f) (fun _ _ _ _ g h f hf => (h f hf).mono g)
    (fun name _ _ => (importFile_runs hs.toHosts name).imp fun _ _ _ _ => trivial) hstep hu).imp
    fun _ d' h => ⟨h.1, ?_⟩
  rintro f ⟨-, -, name, hname, hf⟩
  exact forall_mem_of_forall₂ h.2.flip name hname f hf

/-- A parent is found unless its file has not got past its imports. -/
theorem resolveClass_attempts {name : String} (hname : name ∈ (fam.classOf p.file).inherits)
    (hu : fam.Underway p c₀ early d) :
    Attempts p d (resolveClass s name)
      (fun id d' => fam.Underway p c₀ early d' ∧
        ∃ e, d'.catalog.registry.classes.find? name = some e ∧ e.id = id)
        (fam.Blames early p.file) := by
  obtain ⟨f, hf, rfl⟩ := fam.inherited p.file hs.member name hname
  have hinherits : fam.Inherits p.file f := ⟨hs.member, hf, hname⟩
  have hfile : Building.classFile s (fam.classOf f).name = f :=
    (hs.classFile_eq _).trans (fam.named f hf)
  have hscanned : s.isScanned f = true := hs.isScanned ▸ contains_of_mem hf
  unfold resolveClass
  refine .registry ?_
  cases hfound : d.catalog.registry.classes.find? (fam.classOf f).name with
  | some e => exact .pure ⟨hu, e, hfound, rfl⟩
  | none =>
    dsimp only
    rw [hfile, if_pos hscanned]
    refine .bind (load_runs hs.toHosts hscanned)
      (load_attempts hs (List.subset_cons_self _ _) (.inr hinherits)
      (awaits_next hawaits hu.intact.early_subset (.inr hinherits)) hu) fun _ d₂ _ _ h₂ => ?_
    obtain ⟨hu₂, hmet⟩ := h₂
    refine .registry ?_
    -- a parent that has not got past its imports is under way, but its class is not entered
    by_cases hearly : f ∈ early
    · cases hfound₂ : d₂.catalog.registry.classes.find? (fam.classOf f).name with
      | some e => exact .pure ⟨hu₂, e, hfound₂, rfl⟩
      | none => exact fun _ => ⟨f, ⟨p.file, hawaits f hearly, hinherits⟩, .inr hearly, rfl⟩
    · obtain ⟨e, he⟩ := hu₂.intact.found_of_mem hf hmet hearly
      rw [show d₂.catalog.registry.classes.find? (fam.classOf f).name = some e from he]
      exact .pure ⟨hu₂, e, he, rfl⟩

end

theorem declareClass_eq (s : Site) {source : ClassSource}
    (hclass : d.catalog.registry.classes.find? source.name = none)
    (hdeclaration : d.catalog.registry.declarations.find? source.name = none) :
    ∃ (record : Record .classes) (e : Entry .classes) (declaration : Record .declarations)
      (e' : Entry .declarations) (journal : List Change), e.name = source.name ∧
      e'.name = source.name ∧
      declareClass s source d = .ok (d.catalog.next .classes)
        { d with
          catalog :=
            (((d.catalog.insert record).enter .classes e).insert declaration).enter .declarations e'
          journal } := by
  refine ⟨{ fullName := source.name, file := s.file, kind := source.kind },
    ⟨source.name, s.file, d.catalog.next .classes⟩,
    ⟨source.name, s.file, .className, .classTarget (d.catalog.next .classes)⟩,
    ⟨source.name, s.file, ?_⟩, ?_, rfl, rfl, ?_⟩
  rotate_left 2
  · simp only [declareClass, checkAvailable, registry, bind, EStateM.bind, hdeclaration, pure,
      EStateM.pure, Building.insert, register, Registry.index, Catalog.insert, hclass, declare,
      Catalog.enter, Registry.setIndex]
    rfl

/-- A member whose imports are done enters its class. -/
theorem declareClass_attempts (hs : fam.Hosts p s) (hidle : p.file ∉ early)
    (hu : fam.Underway p c₀ (p.file :: early) d) :
    Attempts p d (declareClass s (fam.classOf p.file)) (fun _ d' => fam.Underway p c₀ early d')
      (fam.Blames early p.file) := by
  refine .sound fun hsound => ?_
  have hparsed : p.file ∉ d.catalog.parsed := not_mem_parsed_of_sound hsound
  have hvacant := hu.intact.vacant p.file hs.member hparsed fun _ => List.mem_cons_self
  obtain ⟨record, e, declaration, e', journal, hname, hname', hrun⟩ :=
    declareClass_eq s hvacant.1 hvacant.2
  have wf : d.catalog.WellFormed := Accounted.wellFormed hsound
  have wf' : ((d.catalog.insert record).enter .classes e).WellFormed :=
    Catalog.insert_wellFormed wf record
  refine .of_eq hrun ⟨hu.intact.enter hs.member hidle rfl (fun {n e₀} he => ?_)
    (fun id r hr => ?_) ?_ (fun n hn => ⟨?_, ?_⟩), hu.reached⟩
  · change (d.catalog.registry.classes.insert e).find? n = some e₀
    rw [find?_insert, he, Option.some_or]
  · have hkept := (Catalog.get?_insert_of_live wf record (Catalog.live_of_get? hr)).trans hr
    exact (Catalog.get?_insert_of_live wf' declaration (Catalog.live_of_get? hkept)).trans hkept
  · refine ⟨e, ?_⟩
    change (d.catalog.registry.classes.insert e).find? (fam.classOf p.file).name = some e
    rw [find?_insert, ← className, hvacant.1, Option.none_or, className, if_pos hname]
  · exact find?_insert_of_ne _ fun he => hn (he.symm.trans hname)
  · exact find?_insert_of_ne _ fun he => hn (he.symm.trans hname')

/-- No parsed file has entered a record. -/
def Unentered (c : Catalog) {h : Heading} (id : Id h.table) : Prop :=
  ∀ e ∈ c.entries h, e.file ∈ c.parsed → e.id ≠ id

theorem unentered_of_owns (hsound : (p.progress d).Sound p.outer) {h : Heading} {id : Id h.table}
    (own : d.Owns id) : Unentered d.catalog id := by
  rintro e he hfile rfl
  have ha : Accounted d.catalog ((p.frame d.journal).owner :: d.catalog.owners p.outer) := hsound
  obtain ⟨o, ho, hfile', -, hid⟩ := ha.owner_of_entry h e he
  rcases List.mem_cons.mp ho with rfl | ho
  · have hself : p.file = e.file := hfile'
    exact not_mem_parsed_of_sound hsound (hself ▸ hfile)
  · exact ha.owner_unique own ho hid

theorem Unentered.modify {c : Catalog} {id : Id .classes} (h : Unentered c (h := .classes) id)
    (f : ClassRecord → ClassRecord) : Unentered (c.modify (t := .classes) id f)
        (h := .classes) id :=
  h

/-- A build that changes a record of its own leaves the classes of the parsed members alone. -/
theorem Underway.modify (hu : fam.Underway p c₀ early d) {id : Id .classes}
    (hid : Unentered d.catalog (h := .classes) id) (f : ClassRecord → ClassRecord) :
    fam.Underway p c₀ early (d.changed (t := .classes) id f) where
  intact := by
    refine hu.intact.congr rfl rfl fun m hm e r he hfile hr => ?_
    have hne := hid e (find?_eq_some he).1 (hfile ▸ hm)
    rwa [Draft.changed, Catalog.get?_modify_of_ne]
    intro heq
    cases heq
    exact hne rfl
  reached := hu.reached

/-- The class of a member is filled by four changes, the first of which sets its parents. -/
theorem built_attempts {f₁ f₂ f₃ f₄ : ClassRecord → ClassRecord} {ids : List (Id .classes)}
    {id : Id .classes} {F : LoadError → Prop} (hu : fam.Underway p c₀ early d)
    (hc : p.HasClass d (fam.classOf p.file) id)
    (hids : Resolved d.catalog (fam.classOf p.file).inherits ids) (h₁ : ∀ r, (f₁ r).inherits = ids)
    (h₂ : ∀ r, (f₂ r).inherits = r.inherits) (h₃ : ∀ r, (f₃ r).inherits = r.inherits)
    (h₄ : ∀ r, (f₄ r).inherits = r.inherits) :
    Attempts p d (do
        modify (t := .classes) id f₁
        modify (t := .classes) id f₂
        modify (t := .classes) id f₃
        modify (t := .classes) id f₄)
      (fun _ d' => fam.Underway p c₀ early d' ∧ fam.Built d'.catalog p.file) F := by
  refine .sound fun hsound => ?_
  obtain ⟨own, hrecord, hdeclares⟩ := hc
  obtain ⟨r, hr⟩ : ∃ r, d.catalog.get? id = some r := ⟨_, hrecord⟩
  have hid : Unentered d.catalog (h := .classes) id := unentered_of_owns hsound own
  have hlive : d.catalog.Live id := Catalog.live_of_get? hr
  have hrun : (do
        modify (t := .classes) id f₁
        modify (t := .classes) id f₂
        modify (t := .classes) id f₃
        modify (t := .classes) id f₄ : Building Unit) d =
        .ok () ((((d.changed (t := .classes) id f₁).changed
      (t := .classes) id f₂).changed (t := .classes) id f₃).changed (t := .classes) id f₄) := by
    simp [bind, EStateM.bind, modify_eq, Draft.changed, Catalog.live_modify_iff, hlive]
  refine .of_eq hrun ⟨?_, ⟨_, p.file, id⟩, f₄ (f₃ (f₂ (f₁ r))), hdeclares.class_found, rfl, ?_, ?_⟩
  · have hid₂ := (hid.modify f₁).modify f₂
    exact (((hu.modify hid f₁).modify (hid.modify f₁) f₂).modify hid₂ f₃).modify (hid₂.modify f₃) f₄
  · simp [Draft.changed, Catalog.get?_modify_self, hr]
  · rw [h₄, h₃, h₂, h₁]
    exact hids.mono fun he => he

theorem fillClass_eq {source : ClassSource} (hbare : source.IsBare) (id : Id .classes) :
    fillClass s id source = (do
      let doc ← documentation source.documentation
      let inherits ← each (resolveClass s) source.inherits
      modify (t := .classes) id fun r => { r with
        documentation := doc, legacyPrefix := source.legacyPrefix, eoPrefix := source.eoPrefix
        eventPrefix := source.eventPrefix, dataType := source.dataType, inherits }
      modify (t := .classes) id fun r => { r with functions := [] }
      modify (t := .classes) id fun r => { r with events := [], parts := [] }
      modify (t := .classes) id fun r => { r with implements := [], constructors := [] }) := by
  simp [fillClass, functionSources, hbare.methods, hbare.properties, hbare.events, hbare.parts,
    hbare.implements, hbare.constructors, distinctly, each, storeImplements]

theorem documentation_attempts (hu : fam.Underway p c₀ early d)
    (source : Option DocumentationSource) {F : LoadError → Prop} :
    Attempts p d (documentation source) (fun _ d' => fam.Underway p c₀ early d') F := by
  cases source with
  | none => exact .pure hu
  | some source =>
    refine .sound fun hsound =>
      .of_eq rfl ⟨hu.intact.congr rfl rfl fun m _ e r _ _ hr => ?_, hu.reached⟩
    exact (Catalog.get?_insert_of_live (Accounted.wellFormed hsound) _
      (Catalog.live_of_get? hr)).trans hr

/-- The class of a member gets the parents that it lists. -/
theorem fillClass_attempts (hs : fam.Hosts p s) (hawaits : ∀ m ∈ early, fam.Awaits [m] m p.file)
    (hu : fam.Underway p c₀ early d) {id : Id .classes}
    (hc : p.HasClass d (fam.classOf p.file) id) :
    Attempts p d (fillClass s id (fam.classOf p.file))
      (fun _ d' => fam.Underway p c₀ early d' ∧ fam.Built d'.catalog p.file)
      (fam.Blames early p.file) := by
  rw [fillClass_eq (fam.bare p.file hs.member)]
  refine .bind (documentation_runs _) (documentation_attempts hu _) fun doc d₁ g₁ _ hu₁ => ?_
  have hrow := Attempts.each (F := fam.Blames early p.file) (I := fam.Underway p c₀ early)
    (P := fun name (id : Id .classes) d' => ∃ e, d'.catalog.registry.classes.find? name =
      some e ∧ e.id = id)
    (fun _ _ _ _ g ⟨e, he, hid⟩ => ⟨e, g.found (h := .classes) he, hid⟩)
    (fun name _ _ => (resolveClass_runs hs.toHosts name).imp fun _ _ _ _ => trivial)
    (fun name hname d' hu' => resolveClass_attempts hs hawaits hname hu') hu₁
  refine .bind (each_runs (lasting_live _) fun a _ _ _ =>
    (resolveClass_runs hs.toHosts a).imp fun _ _ _ h => h.1) hrow
    fun inherits d₂ g₂ _ h₂ => ?_
  have hc₂ := (g₁.trans g₂).has hc List.not_mem_nil
  exact built_attempts h₂.1 hc₂ h₂.2 (fun _ => rfl) (fun _ => rfl) (fun _ => rfl) fun _ => rfl

theorem file_eq (hs : fam.Hosts p s) :
    file s (fam.sourceOf p.file) = (do
      let _ ← each (importFile s) (fam.importsOf p.file)
      let id ← declareClass s (fam.classOf p.file)
      fillClass s id (fam.classOf p.file)) := by
  simp [file, sourceOf, checkKind, hs.kind, declareAll, fillAll, Building.optional, each, eachPair]

/-- The build of a member. -/
theorem file_attempts (hs : fam.Hosts p s) (hawaits : ∀ m ∈ early, fam.Awaits [m] m p.file)
    (hidle : p.file ∉ early) (hintact : fam.Intact c₀ p.files (p.file :: early)) :
    Attempts p ⟨c₀, [], [], []⟩ (file s (fam.sourceOf p.file))
      (fun _ d' => fam.Underway p c₀ early d' ∧ (∀ f, fam.Needs p.file f → Met p d' f) ∧
        fam.Built d'.catalog p.file ∧ ¬ fam.LoopsBeside (p.outer.map Frame.file) p.file)
      (fam.Blames early p.file) := by
  rw [file_eq hs]
  have hbegin : fam.Underway p c₀ (p.file :: early) ⟨c₀, [], [], []⟩ := ⟨hintact, fun _ h => .inl h⟩
  refine .bind (importAll_runs hs.toHosts _) (importAll_attempts hs hawaits hbegin)
    fun _ d₁ g₁ _ h₁ => .sound fun hsound => ?_
  obtain ⟨hu₁, himports⟩ := h₁
  have hloops : ¬ fam.LoopsBeside (p.outer.map Frame.file) p.file :=
    hu₁.intact.not_loopsBeside hs.member (not_mem_parsed_of_sound hsound) himports
  refine .bind (declareClass_runs hs.toHosts _) (declareClass_attempts hs hidle hu₁)
    fun id d₂ g₂ hdeclared hu₂ => ?_
  obtain ⟨hclass, -⟩ := hdeclared
  refine (Attempts.grows (fillClass_runs hs.toHosts _ hclass.own hclass.record)
    (fillClass_attempts hs hawaits hu₂ hclass)).imp fun _ d₃ h₃ => ?_
  obtain ⟨g₃, hu₃, hbuilt⟩ := h₃
  refine ⟨hu₃, fun f hf => ?_, hbuilt, hloops⟩
  rcases hf with hf | hf
  · exact ((himports f hf).mono g₂).mono g₃
  · obtain ⟨_, _, -, -, -, hparents⟩ := hbuilt
    obtain ⟨e, he⟩ := hparents.exists_entry hf.2.2
    exact hu₃.intact.mem_of_found hf.2.1 he

theorem hosts_of_nested {frames : List Frame} {file : ScannedFile} {name : String} {c : Catalog}
    (hname : name ∈ fam.members) (hkind : file.kind = .interface)
    (hnested : ∀ fr : Frame, fr.file = name →
      ∀ early f c, (⟨c, []⟩ : Progress).Sound (fr :: frames) →
      f ∈ fam.members → fam.Intact c (name :: frames.map Frame.file) early →
      (f ∉ name :: frames.map Frame.file → ∀ m ∈ early, fam.Awaits [m] m f) →
      fam.Loads (name :: frames.map Frame.file) early f c
        (src.parseFile (name :: frames.map Frame.file) f c)) :
    fam.Hosts (src.place frames file name (fam.sourceOf name) c)
      (src.site (frames.map Frame.file) file name) where
  toHosts := place_hosts fun fr hfr other c' hs => by
    have hout := src.parseFile_outcome (fr :: frames) other c' hs
    rwa [List.map_cons, hfr] at hout
  member := hname
  kind := hkind
  settings := rfl
  isScanned := rfl
  loads d early f hs :=
    hnested ((src.place frames file name (fam.sourceOf name) c).frame d.journal) rfl early f
      d.catalog hs

/-- A member that is built where the others are loaded as they should be is loaded as it should
be. -/
theorem buildFile_loads {frames : List Frame} {file : ScannedFile} {name : String} {c : Catalog}
    (hs : fam.Hosts (src.place frames file name (fam.sourceOf name) c)
      (src.site (frames.map Frame.file) file name))
    (hsound : (⟨c, []⟩ : Progress).Sound frames) (hparsed : name ∉ c.parsed)
    (hidle : name ∉ frames.map Frame.file) (hintact : fam.Intact c (frames.map Frame.file) early)
    (hawaits : ∀ m ∈ early, fam.Awaits [m] m name) :
    match buildFile (src.site (frames.map Frame.file) file name) (fam.sourceOf name) c with
    | .ok _ d => ∀ b : Build, b.file = name →
        fam.Loads (frames.map Frame.file) early name c (.ok () (d.conclude b))
    | .error e _ => fam.Blames early name e := by
  let p := src.place frames file name (fam.sourceOf name) c
  have hbegin : (p.progress ⟨c, [], [], []⟩).Sound p.outer :=
    Step.sound (.begin (fam.sourceOf name) p.imports hparsed hidle) hsound
  have hrun :=
    file_attempts hs hawaits (fun he => hidle (hintact.early_subset he))
      (hintact.begin hidle) hbegin
  unfold buildFile
  cases hf : Building.file (src.site (frames.map Frame.file) file name) (fam.sourceOf name)
      ⟨c, [], [], []⟩ with
  | error e d =>
    have hf' : Building.file _ (fam.sourceOf p.file) _ = _ := hf
    rw [hf'] at hrun
    exact hrun
  | ok u d =>
    have hf' : Building.file _ (fam.sourceOf p.file) _ = _ := hf
    rw [hf'] at hrun
    obtain ⟨hu, hneeds, hbuilt, hloops⟩ := hrun
    intro b hb
    have hparsed' : (d.catalog.conclude b).parsed = d.catalog.parsed ++ [name] := by
      simp [Catalog.conclude, Catalog.parsed, hb]
    refine ⟨hu.intact.conclude hintact.early_subset hneeds hbuilt hb, .inl (by simp [hparsed']),
      fun f hmem => ?_, .inr (.inr hloops)⟩
    rw [hparsed', List.mem_append, List.mem_singleton] at hmem
    rcases hmem with hmem | rfl
    · exact hu.reached f hmem
    · exact .inr .refl

/-- Loading a member. The induction is on the files that are not being loaded. -/
theorem parseFile_loads (fam : src.Family) (frames : List Frame) (early : List String)
    (name : String) (c : Catalog) (hsound : (⟨c, []⟩ : Progress).Sound frames)
    (hname : name ∈ fam.members) (hintact : fam.Intact c (frames.map Frame.file) early)
    (hawaits : name ∉ frames.map Frame.file → ∀ m ∈ early, fam.Awaits [m] m name) :
    fam.Loads (frames.map Frame.file) early name c
      (src.parseFile (frames.map Frame.file) name c) := by
  induction hn : (src.idle (frames.map Frame.file)).length using Nat.strongRecOn
    generalizing frames early name c with
  | ind n ih =>
    rw [parseFile]
    split
    · next hd =>
      have hdone : name ∈ c.parsed ∨ name ∈ frames.map Frame.file := by
        simpa [Catalog.isParsed] using hd
      exact ⟨hintact, hdone, fun _ h => .inl h, or_assoc.mp (.inl hdone)⟩
    · next hd =>
      have hout : name ∉ c.parsed ∧ name ∉ frames.map Frame.file := by
        simpa [Catalog.isParsed] using hd
      obtain ⟨hparsed, hidle⟩ := hout
      obtain ⟨file, hknown, hkind, hread⟩ := fam.known name hname
      split
      · next hnone =>
        rw [hknown] at hnone
        cases hnone
      · next file' hfile =>
        cases hknown.symm.trans hfile
        have hosts : fam.Hosts (src.place frames file name (fam.sourceOf name) c)
            (src.site (frames.map Frame.file) file name) := by
          refine hosts_of_nested hname hkind fun fr hfr early' f c' hs' hf hintact' hawaits' => ?_
          have hfiles : (fr :: frames).map Frame.file = name :: frames.map Frame.file := by
            rw [List.map_cons, hfr]
          rw [← hfiles] at hintact' hawaits' ⊢
          refine ih _ ?_ (fr :: frames) early' f c' hs' hf hintact' hawaits' rfl
          rw [← hn, hfiles]
          exact idle_lt hknown hidle
        have hbuild := buildFile_loads hosts hsound hparsed hidle hintact (hawaits hidle)
        rw [hread]
        unfold site sourceOf at hbuild
        dsimp only
        split
        · next journal d hok =>
          rw [hok] at hbuild
          exact hbuild _ rfl
        · next e d herror =>
          rw [herror] at hbuild
          exact hbuild

end Sources.Family

end InterfaceCatalog
