import InterfaceCatalog.Proofs.Build.Events
import InterfaceCatalog.Proofs.Build.FamilyLoading
import Mathlib.Data.List.Chain

namespace InterfaceCatalog

namespace LoadError

/-- The files that an error names because something that they need has failed, from outside in. -/
def trail : LoadError → List String
  | dependency file e => file :: e.trail
  | _ => []

theorem eq_foldr_dependency (e : LoadError) : e = e.trail.foldr dependency e.cause := by
  induction e with
  | dependency file e ih => rw [trail, cause, List.foldr_cons, ← ih]
  | _ => rfl

theorem cause_ne_dependency (e : LoadError) (file : String) (source : LoadError) :
    e.cause ≠ .dependency file source := by
  induction e with
  | dependency _ e ih => exact ih
  | _ => nofun

theorem trail_of_not_isForeign {e : LoadError} (h : ¬ e.IsForeign) :
    e.trail = [] ∧ e.cause = e := by
  cases e with
  | dependency => exact absurd trivial h
  | _ => exact ⟨rfl, rfl⟩

end LoadError

/-- A call of `parseFile`: the files under way, the one to be loaded, and the catalog at that
time. -/
structure LoadCall where
  loading : List String
  file : String
  catalog : Catalog

namespace Sources

section

variable (src : Sources) (call : LoadCall)

/-- The file of a call is read, and its build fails. -/
def BuildFails (e : LoadError) (d : Draft) : Prop :=
  ∃ file source, src.files.find? call.file = some file ∧ src.readSource file = .ok source ∧
    Building.file (src.site call.loading file call.file) source ⟨call.catalog, [], [], []⟩ =
    .error e d

/-- A load that the build of a call asks for succeeds. -/
def Answers (load : String × Catalog) : Prop :=
  ∃ c, src.parseFile (call.file :: call.loading) load.1 load.2 = .ok () c

/-- A call fails by itself: its file cannot be read, or it is built and all that it asks for
succeeds, but not the build. -/
inductive FailsAlone (e : LoadError) : Prop
  | unread {file : ScannedFile} (known : src.files.find? call.file = some file)
      (read : src.readSource file = .error e)
  | unbuilt {d : Draft} (fails : src.BuildFails call e d) (own : ¬ e.IsForeign)
      (answered : ∀ load ∈ d.loads, src.Answers call load)

/-- The build of a call fails as it asks for another one, which fails. All that it asks
for before succeeds. -/
inductive Asks (call' : LoadCall) : Prop
  | intro {e : LoadError} {c : Catalog} {d : Draft} {before : List (String × Catalog)}
      (loading : call'.loading = call.file :: call.loading)
      (fails : src.BuildFails call (.dependency call.file e) d)
      (loads : d.loads = (call'.file, call'.catalog) :: before)
      (answered : ∀ load ∈ before, src.Answers call load)
      (answer : src.parseFile call'.loading call'.file call'.catalog = .error e c)

/-- The calls that an error of a call comes from. Each of them asks for the next one, and the last
one fails by itself, while the files of the others are under way. -/
structure Traces (e : LoadError) (calls : List LoadCall) (last : LoadCall) : Prop where
  head : (calls ++ [last]).head? = some call
  asks : List.IsChain src.Asks (calls ++ [last])
  files : calls.map LoadCall.file = e.trail
  fails : src.FailsAlone last e.cause
  loading : last.loading = e.trail.reverse ++ call.loading

end

variable {src : Sources} {call call' last : LoadCall} {calls : List LoadCall} {e : LoadError}

theorem FailsAlone.not_isForeign (h : src.FailsAlone call e) : ¬ e.IsForeign := by
  cases h with
  | unread _ read => exact not_isForeign_of_readSource read
  | unbuilt _ own _ => exact own

theorem Traces.alone (h : src.FailsAlone call e) : src.Traces call e [] call := by
  obtain ⟨htrail, hcause⟩ := LoadError.trail_of_not_isForeign h.not_isForeign
  exact ⟨rfl, List.isChain_singleton call, htrail.symm, hcause.symm ▸ h, by rw [htrail]; rfl⟩

theorem Traces.cons (h : src.Asks call call') (ht : src.Traces call' e calls last) :
    src.Traces call (.dependency call.file e) (call :: calls) last where
  head := rfl
  asks := by
    refine List.isChain_cons.mpr ⟨fun next hnext => ?_, ht.asks⟩
    cases ht.head.symm.trans hnext
    exact h
  files := by rw [List.map_cons, ht.files, LoadError.trail]
  fails := ht.fails
  loading := by
    obtain ⟨hloading⟩ := h
    rw [ht.loading, hloading, LoadError.trail, List.reverse_cons, List.append_assoc]
    rfl

section

variable {frames : List Frame} {file : ScannedFile} {name : String} {source : FileSource}
    {c : Catalog} {d : Draft}

/-- As long as a build goes on, all that it asks for succeeds. -/
theorem answers_of_turns (h : (src.place frames file name source c).Turns ⟨c, [], [], []⟩ d) :
    ∀ load ∈ d.loads, src.Answers ⟨frames.map Frame.file, name, c⟩ load := by
  induction h with
  | refl => exact fun _ h => absurd h List.not_mem_nil
  | tail _ hturn ih =>
    cases hturn with
    | own loads => exact loads ▸ ih
    | load _ _ answer => exact List.forall_mem_cons.mpr ⟨⟨_, answer⟩, ih⟩

/-- The books of what a build has asked for, as long as it goes on. -/
theorem agrees_of_turns {b : Books} (hb : b.Agrees c (name :: frames.map Frame.file))
    (hu : b.Unfailed) (h : (src.place frames file name source c).Turns ⟨c, [], [], []⟩ d) :
    let b' := b.noteAll (d.gather (src.events (name :: frames.map Frame.file)))
    b'.Agrees d.catalog (name :: frames.map Frame.file) ∧ b'.Unfailed := by
  refine (accepts_of_turns (fun fr hfr other c' b' hs' hb' hu' => ?_) hb hu h).2
  have hrecorded := src.recorded (fr :: frames) other c' hs' (by rwa [List.map_cons, hfr]) hu'
  rwa [List.map_cons, hfr] at hrecorded

end

/-- Where an error comes from: the calls that lead to the file that fails by itself. That file is
entered while those that the error names are under way. The induction is on the files that are
not being loaded. -/
theorem exists_traces (src : Sources) (frames : List Frame) {name : String} {c c' : Catalog}
    {e : LoadError} (hs : (⟨c, []⟩ : Progress).Sound frames)
    (hname : src.files.contains name) {b : Books} (hb : b.Agrees c (frames.map Frame.file))
    (hu : b.Unfailed) (herror : src.parseFile (frames.map Frame.file) name c = .error e c') :
    ∃ calls last, src.Traces ⟨frames.map Frame.file, name, c⟩ e calls last ∧
      ∃ past, past ++ [.read last.file] <+: src.events (frames.map Frame.file) name c ∧
        (b.noteAll past).underway = last.loading := by
  induction hn : (src.idle (frames.map Frame.file)).length using Nat.strongRecOn
    generalizing frames name c c' e b with
  | ind n ih =>
    have hlevel := src.level (frames.map Frame.file) name c
    rw [herror] at hlevel
    generalize src.events (frames.map Frame.file) name c = events at hlevel ⊢
    generalize src.undone (frames.map Frame.file) name c = undone at hlevel
    cases hlevel with
    | unknown hf => simp [FileTable.contains, hf] at hname
    | unread _ _ hf hread =>
      exact ⟨[], _, .alone (.unread hf hread), [], List.prefix_refl _, hb.underway⟩
    | @failed file source _ d hparsed hidle hf hread hresult =>
      have hfails : src.BuildFails ⟨frames.map Frame.file, name, c⟩ e d :=
        ⟨file, source, hf, hread, hresult⟩
      have hturns := src.turns_of_build file source hs hparsed hidle
      rw [hresult] at hturns
      obtain ⟨-, stopped, hturns, hstops⟩ := hturns
      have hanswered := answers_of_turns hturns
      cases hstops with
      | own hown =>
        exact ⟨[], _, .alone (.unbuilt hfails hown hanswered), [], ⟨_, rfl⟩, hb.underway⟩
      | @load e other c' hsound hscanned answer =>
        -- the books when the other file is asked for
        obtain ⟨hagrees, hunfailed⟩ := agrees_of_turns hb.enter hu.enter hturns
        let fr := (src.place frames file name source c).frame stopped.journal
        have hlt : (src.idle ((fr :: frames).map Frame.file)).length < n := hn ▸ idle_lt hf hidle
        obtain ⟨calls, last, htraces, past, ⟨rest, hpast⟩, hunderway⟩ :=
          ih _ hlt (fr :: frames) hsound hscanned hagrees hunfailed answer rfl
        have hasks : src.Asks ⟨frames.map Frame.file, name, c⟩
            ⟨(fr :: frames).map Frame.file, other, stopped.catalog⟩ :=
          .intro rfl hfails rfl hanswered answer
        refine ⟨_ :: calls, last, htraces.cons hasks,
          .read name :: .begun name ::
            stopped.gather (src.events (name :: frames.map Frame.file)) ++ past,
          ⟨rest ++ [.ended name false], ?_⟩, ?_⟩
        · have hpast' : past ++ [.read last.file] ++ rest =
              src.events (name :: frames.map Frame.file) other stopped.catalog := hpast
          rw [Draft.gather_loaded, ← hpast']
          simp
        · rw [Books.noteAll_append]
          exact hunderway

end Sources

end InterfaceCatalog
