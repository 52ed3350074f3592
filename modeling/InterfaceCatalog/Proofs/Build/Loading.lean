import InterfaceCatalog.Proofs.Build.Body

namespace InterfaceCatalog

/-- A build of a known file has a class exactly if the file is to have one. -/
def FileTable.Suits (files : FileTable) (b : Build) : Prop :=
  ∃ file, files.find? b.file = some file ∧ (file.kind = .interface ↔ b.source.declaredClass.isSome)

namespace Sources

/-- What is known of a build that was loaded: it has what its file says. -/
structure Admits (src : Sources) (b : Build) : Prop where
  suits : src.files.Suits b
  read : ∃ file, src.files.find? b.file = some file ∧ src.readSource file = .ok b.source

theorem not_isForeign_of_readSource {src : Sources} {file : ScannedFile} {e : LoadError}
    (h : src.readSource file = .error e) : ¬ e.IsForeign := by
  unfold readSource at h
  split at h
  · cases h; exact fun h => h
  split at h
  · cases h; exact fun h => h
  split at h
  · cases h; exact fun h => h
  · cases h

/-- What loading a file comes to. -/
def Outcome (src : Sources) (frames : List Frame) (name : String) (c : Catalog) :
    EStateM.Result LoadError Catalog Unit → Prop
  | .ok _ c' => Steps frames ⟨c, []⟩ ⟨c', []⟩ ∧ c.Adds src.Admits c' ∧ (c.Told → c'.Told) ∧
      (c.Announced → MeantSteps frames ⟨c, []⟩ ⟨c', []⟩ ∧ c'.Announced) ∧
      (name ∈ c'.parsed ∨ name ∈ frames.map Frame.file)
  | .error e c' => Moves frames ⟨c, []⟩ ⟨c', []⟩ ∧ c.Adds src.Admits c' ∧ (c.Told → c'.Told) ∧
      (c.Announced → MeantMoves frames ⟨c, []⟩ ⟨c', []⟩ ∧ c'.Announced) ∧
      ¬ e.IsStale ∧ name ∉ c'.parsed

/-- The site of a build that loads other files through `parseFile`. -/
def site (src : Sources) (loading : List String) (file : ScannedFile) (name : String) : Site where
  file := name
  kind := file.kind
  settings := src.settings
  isScanned := src.files.contains
  load := fun other => src.parseFile (name :: loading) other

/-- The place of a build that begins now. -/
def place (src : Sources) (frames : List Frame) (file : ScannedFile) (name : String)
    (source : FileSource) (c : Catalog) : Place where
  file := name
  source := source
  imports :=
    source.imports.filterMap (Building.importedFile? (src.site (frames.map Frame.file) file name))
  start := c.builds.length
  outer := frames
  admits := src.Admits
  isScanned := src.files.contains
  loader := src.parseFile (name :: frames.map Frame.file)

theorem place_hosts {src : Sources} {frames : List Frame} {file : ScannedFile} {name : String}
    {source : FileSource} {c : Catalog}
    (hnested : ∀ fr : Frame, fr.file = name → ∀ other c, (⟨c, []⟩ : Progress).Sound (fr :: frames) →
      src.Outcome (fr :: frames) other c (src.parseFile (name :: frames.map Frame.file) other c)) :
    (src.place frames file name source c).Hosts (src.site (frames.map Frame.file) file name) where
  file_eq := rfl
  scanned_eq := rfl
  load_eq := rfl
  load d other hs := by
    have hload :=
      hnested ((src.place frames file name source c).frame d.journal) rfl other d.catalog hs
    simp only [site]
    cases hr : src.parseFile (name :: frames.map Frame.file) other d.catalog with
    | ok u c' =>
      rw [hr] at hload
      exact hload
    | error e c' =>
      rw [hr] at hload
      exact ⟨hload.1, hload.2.1, hload.2.2.1, hload.2.2.2.1, hload.2.2.2.2.1⟩

/-- A file under way is not parsed. -/
theorem not_mem_parsed_of_sound {p : Place} {d : Draft} (hs : (p.progress d).Sound p.outer) :
    p.file ∉ d.catalog.parsed := by
  have hnodup := Accounted.files_nodup hs
  rw [files_owners] at hnodup
  simp only [Place.progress, Place.frame, List.cons_append, List.map_cons, List.nodup_cons,
    List.mem_append, not_or] at hnodup
  exact hnodup.1.2

/-- The build of a file, from its beginning to its end. -/
theorem loads_of_build {src : Sources} {frames : List Frame} {file : ScannedFile} {name : String}
    {source : FileSource} {c : Catalog} (hs : (⟨c, []⟩ : Progress).Sound frames)
    (hparsed : name ∉ c.parsed) (hidle : name ∉ frames.map Frame.file)
    (hfile : src.files.find? name = some file) (hread : src.readSource file = .ok source)
    (hosts : (src.place frames file name source c).Hosts
      (src.site (frames.map Frame.file) file name)) :
    match buildFile (src.site (frames.map Frame.file) file name) source c with
    | .ok journal d =>
      let d' := d.conclude (((src.place frames file name source c).frame journal).build d frames)
      Steps frames ⟨c, []⟩ ⟨d', []⟩ ∧ c.Adds src.Admits d' ∧ (c.Told → d'.Told) ∧
        (c.Announced → MeantSteps frames ⟨c, []⟩ ⟨d', []⟩ ∧ d'.Announced)
    | .error e d => Moves frames ⟨c, []⟩ ⟨d, []⟩ ∧ c.Adds src.Admits d ∧ (c.Told → d.Told) ∧
        (c.Announced → MeantMoves frames ⟨c, []⟩ ⟨d, []⟩ ∧ d.Announced) ∧
        ¬ e.IsStale ∧ name ∉ d.parsed := by
  let p := src.place frames file name source c
  have hbegin : Step frames ⟨c, []⟩ (p.progress ⟨c, [], [], []⟩) :=
    .begin source p.imports hparsed hidle
  have hsound : (p.progress ⟨c, [], [], []⟩).Sound p.outer := hbegin.sound hs
  have hmeant : Progress.Meant ⟨c, []⟩ (p.progress ⟨c, [], [], []⟩) :=
    Progress.meant_of_kept (fun _ _ h => h) fun _ hb => .inl hb
  obtain ⟨rewritten, hruns⟩ := @file_runs p _ ⟨c, [], [], []⟩ hosts source rfl rfl rfl
  have hrun := hruns hsound
  unfold buildFile
  cases hf : Building.file (src.site (frames.map Frame.file) file name) source ⟨c, [], [], []⟩ with
  | ok u d =>
    rw [hf] at hrun
    obtain ⟨hadvances, hgrows, hcomplete, hkind, hreproduced⟩ := hrun
    refine ⟨(Relation.ReflTransGen.single hbegin).trans (hadvances.steps.tail (.finish hcomplete)),
      ?_, fun ht => (hgrows.told ht).conclude (hreproduced ht), fun ha => ?_⟩
    · intro b hb
      rcases List.mem_append.mp hb with hb | hb
      · exact hadvances.adds b hb
      · cases List.mem_singleton.mp hb
        exact .inr ⟨⟨file, hfile, hkind⟩, file, hfile, hread⟩
    · obtain ⟨hsteps, ha'⟩ := hadvances.meant ha
      refine ⟨?_, ha'⟩
      exact (Relation.ReflTransGen.single ⟨hbegin, hmeant⟩).trans
        (hsteps.finish hsound rfl hcomplete ha')
  | error e d =>
    rw [hf] at hrun
    obtain ⟨⟨hmoves, hadds, htold, -, hmeant'⟩, hstale⟩ := hrun
    have hsound' : (p.progress d).Sound p.outer := Moves.sound hmoves hsound
    refine ⟨?_, fun b hb => hadds b (Catalog.builds_rollback _ _ ▸ hb), fun ht => ?_, fun ha =>
      ?_, hstale, ?_⟩
    · exact (Relation.ReflTransGen.single (.step hbegin)).trans (hmoves.tail .abandon)
    · exact (htold ht).moves (.single .abandon) hsound' (Catalog.builds_rollback _ _)
        ((htold ht).named.rollback hsound')
    · obtain ⟨hmeantMoves, hbeside⟩ := hmeant' ha
      refine ⟨?_, hbeside.rollback (o := (p.frame d.journal).owner) hsound'⟩
      exact (Relation.ReflTransGen.single ⟨.step hbegin, hmeant⟩).trans
        (hmeantMoves.tail ⟨.abandon, Progress.meant_rollback _⟩)
    · have hout : name ∉ d.catalog.parsed := not_mem_parsed_of_sound hsound'
      rwa [Catalog.parsed, Catalog.builds_rollback]

/-- Loading a file follows the machine. The induction is on the files that are not being loaded. -/
theorem parseFile_outcome (src : Sources) (frames : List Frame) (name : String) (c : Catalog)
    (hs : (⟨c, []⟩ : Progress).Sound frames) :
    src.Outcome frames name c (src.parseFile (frames.map Frame.file) name c) := by
  induction hn : (src.idle (frames.map Frame.file)).length using Nat.strongRecOn
    generalizing frames name c with
  | ind n ih =>
    rw [parseFile]
    split
    · next hd =>
      refine ⟨.refl, .refl c, fun ht => ht, fun ha => ⟨.refl, ha⟩, ?_⟩
      simpa [Catalog.isParsed] using hd
    · next hd =>
      have hout : name ∉ c.parsed ∧ name ∉ frames.map Frame.file := by
        simpa [Catalog.isParsed] using hd
      obtain ⟨hparsed, hidle⟩ := hout
      split
      · exact ⟨.refl, .refl c, fun ht => ht, fun ha => ⟨.refl, ha⟩, fun h => h, hparsed⟩
      · next file hfile =>
        split
        · next e he =>
          exact ⟨.refl, .refl c, fun ht => ht, fun ha => ⟨.refl, ha⟩,
            LoadError.not_isStale (not_isForeign_of_readSource he), hparsed⟩
        · next source hsource =>
          have hosts : (src.place frames file name source c).Hosts
              (src.site (frames.map Frame.file) file name) := by
            refine place_hosts fun fr hfr other c' hs' => ?_
            have hnested := ih _ ?_ (fr :: frames) other c' hs' rfl
            · rwa [List.map_cons, hfr] at hnested
            · rw [← hn, List.map_cons, hfr]
              exact idle_lt hfile hidle
          have hbuild := loads_of_build hs hparsed hidle hfile hsource hosts
          unfold site at hbuild
          dsimp only
          split
          · next journal d hok =>
            rw [hok] at hbuild
            have hstart : c.parsed.length = c.builds.length := by simp [Catalog.parsed]
            rw [hstart]
            exact ⟨hbuild.1, hbuild.2.1, hbuild.2.2.1, hbuild.2.2.2,
              .inl (by simp [Catalog.parsed])⟩
          · next e d herror =>
            rw [herror] at hbuild
            exact hbuild

theorem hosts (src : Sources) (frames : List Frame) (file : ScannedFile) (name : String)
    (source : FileSource) (c : Catalog) :
    (src.place frames file name source c).Hosts (src.site (frames.map Frame.file) file name) := by
  refine place_hosts fun fr hfr other c' hs => ?_
  have hload := src.parseFile_outcome (fr :: frames) other c' hs
  rwa [List.map_cons, hfr] at hload

/-- What the build of a file asks for from its beginning to its end. -/
theorem turns_of_build (src : Sources) {frames : List Frame} (file : ScannedFile) {name : String}
    (source : FileSource) {c : Catalog} (hs : (⟨c, []⟩ : Progress).Sound frames)
    (hparsed : name ∉ c.parsed) (hidle : name ∉ frames.map Frame.file) :
    match Building.file (src.site (frames.map Frame.file) file name) source ⟨c, [], [], []⟩ with
    | .ok _ d => (src.place frames file name source c).Turns ⟨c, [], [], []⟩ d
    | .error e d => ((src.place frames file name source c).progress d).Sound frames ∧
        ∃ last, (src.place frames file name source c).Turns ⟨c, [], [], []⟩ last ∧
          (src.place frames file name source c).Stops last e d := by
  let p := src.place frames file name source c
  have hbegin : Step frames ⟨c, []⟩ (p.progress ⟨c, [], [], []⟩) :=
    .begin source p.imports hparsed hidle
  obtain ⟨rewritten, hruns⟩ :=
    @file_runs p _ ⟨c, [], [], []⟩ (src.hosts frames file name source c) source rfl
    rfl rfl
  have hsound : (p.progress ⟨c, [], [], []⟩).Sound p.outer := hbegin.sound hs
  have hrun := hruns hsound
  cases hf : Building.file (src.site (frames.map Frame.file) file name) source ⟨c, [], [], []⟩ with
  | ok u d =>
    rw [hf] at hrun
    exact hrun.1.turns
  | error e d =>
    rw [hf] at hrun
    exact ⟨Moves.sound hrun.1.moves hsound, hrun.1.stops⟩

end Sources

end InterfaceCatalog
