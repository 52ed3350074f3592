import InterfaceCatalog.Proofs.Build.Events

namespace InterfaceCatalog

/-- Whether a slot of a table is freed when a change is taken back. -/
def Change.frees (t : Table) (i : Nat) : Change → Bool
  | .inserted u id => u = t ∧ id.handle.index = i
  | .registered .. => false

/-- How often a slot of a table is freed when changes are taken back. -/
def timesFreed (undone : List Change) (t : Table) (i : Nat) : Nat :=
  undone.countP (Change.frees t i)

/-- No slot is freed so often that its generation starts again. -/
def FreesBounded (undone : List Change) : Prop :=
  ∀ t i, timesFreed undone t i < UInt32.size

theorem timesFreed_append (undone undone' : List Change) (t : Table) (i : Nat) :
    timesFreed (undone ++ undone') t i = timesFreed undone t i + timesFreed undone' t i :=
  List.countP_append

theorem FreesBounded.of_append {undone undone' : List Change}
    (h : FreesBounded (undone ++ undone')) : FreesBounded undone := by
  intro t i
  have hi := h t i
  rw [timesFreed_append] at hi
  omega

namespace Catalog

/-- Each slot was freed as often as its generation says. -/
def Aged (c : Catalog) (undone : List Change) : Prop :=
  ∀ t i, c.age t i = timesFreed undone t i

/-- The members of classes match, and the ages of slots tell which handles were issued. -/
structure Faithful (c : Catalog) (undone : List Change) : Prop where
  aged : c.Aged undone
  matched : c.Matched

variable {c : Catalog}

theorem aged_empty : ({} : Catalog).Aged [] := by
  intro t i
  cases t <;> rfl

theorem age_undo {change : Change}
    (hlive : ∀ {t : Table} {id : Id t}, change = .inserted t id → c.Live id)
    (hb : ∀ t i, change.frees t i → c.age t i + 1 < UInt32.size) (t : Table) (i : Nat) :
    (change.undo c).age t i = c.age t i + if change.frees t i then 1 else 0 := by
  cases change with
  | registered h name => rfl
  | inserted u id =>
    by_cases hut : u = t
    · subst hut
      have hremove := Arena.age_remove (a := c.store.arena u) (k := id.handle) (hlive rfl)
        (hb u id.handle.index (by simp [Change.frees])) i
      simpa [Change.undo, remove, Store.remove, age, Change.frees] using hremove
    · simp [Change.undo, remove, Store.remove, age, Change.frees, hut,
        Store.arena_setArena_of_ne c.store _ hut]

/-- The changes that are taken back make their slots older. -/
theorem Aged.rollback {undone journal : List Change} (ha : c.Aged undone)
    (hlive : ∀ {t : Table} {id : Id t}, Change.inserted t id ∈ journal → c.Live id)
    (hn : journal.Nodup) (hb : FreesBounded (undone ++ journal)) :
    (c.rollback journal).Aged (undone ++ journal) := by
  induction journal generalizing c undone with
  | nil => rwa [List.append_nil]
  | cons change journal ih =>
    obtain ⟨hnew, hn⟩ := List.nodup_cons.mp hn
    rw [List.append_cons] at hb ⊢
    refine ih (c := change.undo c) (fun t i => ?_) (fun {t id} hid => ?_) hn hb
    · have hone : timesFreed [change] t i = if change.frees t i then 1 else 0 :=
        List.countP_singleton
      rw [timesFreed_append, hone, age_undo (fun h => hlive (h ▸ List.mem_cons_self))
        (fun t i hfrees => ?_), ha t i]
      have hbound := hb.of_append t i
      rw [timesFreed_append, ← ha t i] at hbound
      simpa [timesFreed, hfrees] using hbound
    · have hother : change ≠ .inserted t id := fun h => hnew (h ▸ hid)
      rw [Live, Change.get?_undo, if_neg hother]
      exact hlive (List.mem_cons_of_mem _ hid)

/-- A handle that was issued stays so when its record is removed. -/
theorem Issued.rollback {undone journal : List Change} (ha : c.Aged undone)
    (ha' : (c.rollback journal).Aged (undone ++ journal)) {t : Table} {id : Id t}
    (h : c.Issued id) : (c.rollback journal).Issued id := by
  have hage : (c.rollback journal).age t id.handle.index =
      c.age t id.handle.index + timesFreed journal t id.handle.index := by
    rw [ha' t, timesFreed_append, ha t]
  by_cases hid : Change.inserted t id ∈ journal
  · have hfreed : 0 < timesFreed journal t id.handle.index :=
      List.countP_pos_iff.mpr ⟨_, hid, by simp [Change.frees]⟩
    refine .inr ?_
    rcases h with hl | hlt
    · have heq : c.age t id.handle.index = id.handle.generation.toNat := Arena.age_of_contains hl
      omega
    · omega
  · refine h.imp (fun hl => ?_) (fun hlt => by omega)
    rwa [Live, get?_rollback, if_neg hid]

namespace Faithful

variable {undone : List Change}

theorem conclude (h : c.Faithful undone) {b : Build} (hb : c.Kin b.journal) :
    (c.conclude b).Faithful undone :=
  ⟨h.aged, h.matched.conclude hb⟩

theorem rollback (h : c.Faithful undone) {o : Owner} {owners : List Owner}
    (ha : Accounted c (o :: owners)) (hbuilds : ∀ b ∈ c.builds, b.owner ∈ owners)
    (hb : FreesBounded (undone ++ o.journal)) :
    (c.rollback o.journal).Faithful (undone ++ o.journal) := by
  have hnodup : o.journal.Nodup := (List.nodup_append.mp (by simpa using ha.changes_nodup)).1
  have haged := h.aged.rollback (ha.live List.mem_cons_self) hnodup hb
  exact ⟨haged, h.matched.rollback ha hbuilds (Issued.rollback h.aged haged)⟩

end Faithful

end Catalog

namespace Sources

/-- The catalog that a load ends with. -/
def catalogAfter : EStateM.Result LoadError Catalog Unit → Catalog
  | .ok _ c | .error _ c => c

/-- A load leaves a catalog faithful, whether it fails or not. -/
def Keeps (src : Sources) (loading : List String) (name : String) (c : Catalog)
    (past : List Change) : Prop :=
  FreesBounded (past ++ src.undone loading name c) →
    (catalogAfter (src.parseFile loading name c)).Faithful (past ++ src.undone loading name c)

section

variable {src : Sources} {frames : List Frame} {file : ScannedFile} {name : String}
    {source : FileSource}
  {c : Catalog} {past : List Change}
  (hnested : ∀ fr : Frame, fr.file = name →
    ∀ other c past, (⟨c, []⟩ : Progress).Sound (fr :: frames) →
    c.Faithful past → src.Keeps (name :: frames.map Frame.file) other c past)

include hnested

/-- What a build loads leaves the catalog faithful, and the functions of the build are kept. -/
theorem faithful_loaded {d : Draft} {other : String} {c' : Catalog}
    (sound : ((src.place frames file name source c).progress d).Sound frames)
    (answer : catalogAfter (src.parseFile (name :: frames.map Frame.file) other d.catalog) = c')
    (h : d.catalog.Faithful (past ++ d.gather (src.undone (name :: frames.map Frame.file))))
    (hkin : d.catalog.Kin d.journal)
    (hb : FreesBounded
      (past ++ (d.loaded other c').gather (src.undone (name :: frames.map Frame.file)))) :
    c'.Faithful (past ++ (d.loaded other c').gather (src.undone (name :: frames.map Frame.file))) ∧
      c'.Kin d.journal := by
  rw [Draft.gather_loaded, ← List.append_assoc] at hb ⊢
  let frame := (src.place frames file name source c).frame d.journal
  have hkeeps := hnested frame rfl other d.catalog _ sound h hb
  rw [answer] at hkeeps
  have hout := src.parseFile_outcome (frame :: frames) other d.catalog sound
  refine ⟨hkeeps, hkin.extends ?_⟩
  rw [List.map_cons, show frame.file = name from rfl] at hout
  cases hr : src.parseFile (name :: frames.map Frame.file) other d.catalog with
  | ok u c'' =>
    rw [hr] at hout answer
    cases answer
    exact Moves.extends (Steps.moves hout.1) sound
  | error e c'' =>
    rw [hr] at hout answer
    cases answer
    exact Moves.extends hout.1 sound

theorem faithful_of_turns (h : c.Faithful past) {d : Draft}
    (hturns : (src.place frames file name source c).Turns ⟨c, [], [], []⟩ d)
    (hb : FreesBounded (past ++ d.gather (src.undone (name :: frames.map Frame.file)))) :
    d.catalog.Faithful (past ++ d.gather (src.undone (name :: frames.map Frame.file))) ∧
      d.catalog.Kin d.journal := by
  induction hturns with
  | refl =>
    rw [Draft.gather, List.reverse_nil, List.flatMap_nil, List.append_nil]
    exact ⟨h, fun id hid => absurd hid List.not_mem_nil⟩
  | @tail d d' _ hturn ih =>
    cases hturn with
    | own loads builds ages matched =>
      rw [Draft.gather, loads] at hb ⊢
      obtain ⟨hfaithful, hkin⟩ := ih hb
      have hmatched := matched ⟨hfaithful.matched, hkin⟩
      exact ⟨⟨fun t i => (ages t i).trans (hfaithful.aged t i), hmatched.catalog⟩, hmatched.kin⟩
    | @load other c' sound scanned answer =>
      have hbefore := hb
      rw [Draft.gather_loaded, ← List.append_assoc] at hbefore
      obtain ⟨hfaithful, hkin⟩ := ih hbefore.of_append
      have answer : src.parseFile (name :: frames.map Frame.file) other d.catalog = .ok () c' :=
        answer
      exact faithful_loaded hnested sound (by rw [answer]; rfl) hfaithful hkin hb

/-- The catalog of a build that fails, before its changes are taken back. -/
theorem faithful_of_stops (h : c.Faithful past) {last d : Draft} {e : LoadError}
    (hturns : (src.place frames file name source c).Turns ⟨c, [], [], []⟩ last)
    (hstops : (src.place frames file name source c).Stops last e d)
    (hb : FreesBounded (past ++ d.gather (src.undone (name :: frames.map Frame.file)))) :
    d.catalog.Faithful (past ++ d.gather (src.undone (name :: frames.map Frame.file))) := by
  cases hstops with
  | own _ => exact (faithful_of_turns hnested h hturns hb).1
  | @load e other c' sound scanned answer =>
    have hbefore := hb
    rw [Draft.gather_loaded, ← List.append_assoc] at hbefore
    obtain ⟨hfaithful, hkin⟩ := faithful_of_turns hnested h hturns hbefore.of_append
    have answer : src.parseFile (name :: frames.map Frame.file) other last.catalog = .error e c' :=
      answer
    exact (faithful_loaded hnested sound (by rw [answer]; rfl) hfaithful hkin hb).1

end

/-- Every load leaves a catalog faithful. The induction is on the files that are not being
loaded. -/
theorem keeps (src : Sources) (frames : List Frame) (name : String) (c : Catalog)
    (hs : (⟨c, []⟩ : Progress).Sound frames) {past : List Change} (h : c.Faithful past) :
    src.Keeps (frames.map Frame.file) name c past := by
  induction hn : (src.idle (frames.map Frame.file)).length using Nat.strongRecOn
    generalizing frames name c past with
  | ind n ih =>
    have hlevel := src.level (frames.map Frame.file) name c
    have hnested {file : ScannedFile} (hf : src.files.find? name = some file)
        (hidle : name ∉ frames.map Frame.file) (fr : Frame) (hfr : fr.file = name) (other : String)
        (c' : Catalog) (past' : List Change) (hs' : (⟨c', []⟩ : Progress).Sound (fr :: frames))
        (h' : c'.Faithful past') : src.Keeps (name :: frames.map Frame.file) other c' past' := by
      have hkeeps := ih _ ?_ (fr :: frames) other c' hs' h' rfl
      · rwa [List.map_cons, hfr] at hkeeps
      · rw [← hn, List.map_cons, hfr]
        exact idle_lt hf hidle
    unfold Keeps
    intro hb
    generalize src.undone (frames.map Frame.file) name c = undone at hlevel hb ⊢
    generalize src.parseFile (frames.map Frame.file) name c = result at hlevel ⊢
    generalize src.events (frames.map Frame.file) name c = events at hlevel
    cases hlevel with
    | passed _ | unknown _ | unread _ _ _ _ =>
      rw [List.append_nil]
      exact h
    | @built file source d build hparsed hidle hf _ hresult _ hjournal =>
      have hturns := src.turns_of_build file source hs hparsed hidle
      rw [hresult] at hturns
      obtain ⟨hfaithful, hkin⟩ := faithful_of_turns (hnested hf hidle) h hturns hb
      exact hfaithful.conclude (hjournal ▸ hkin)
    | @failed file source e d hparsed hidle hf _ hresult =>
      have hturns := src.turns_of_build file source hs hparsed hidle
      rw [hresult] at hturns
      obtain ⟨hsound, last, hturns, hstops⟩ := hturns
      rw [← List.append_assoc] at hb ⊢
      have hfaithful := faithful_of_stops (hnested hf hidle) h hturns hstops hb.of_append
      exact hfaithful.rollback (o := ((src.place frames file name source c).frame d.journal).owner)
        hsound
        (fun b hmem => owner_mem_owners hmem _) hb

end Sources

end InterfaceCatalog
