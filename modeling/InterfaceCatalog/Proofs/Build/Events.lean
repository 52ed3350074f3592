import InterfaceCatalog.Proofs.Build.Loading

namespace InterfaceCatalog

inductive LoadEvent where
  | read (file : String)
  | begun (file : String)
  | ended (file : String) (succeeded : Bool)
  deriving DecidableEq

namespace Draft

variable {α : Type} (of : String → Catalog → List α)

/-- What comes of the loads that a build has asked for so far. -/
def gather (d : Draft) : List α :=
  d.loads.reverse.flatMap fun load => of load.1 load.2

theorem gather_loaded (d : Draft) (file : String) (c : Catalog) :
    (d.loaded file c).gather of = d.gather of ++ of file d.catalog := by
  simp only [gather, loaded, List.reverse_cons, List.flatMap_append, List.flatMap_singleton]

end Draft

namespace Sources

/-- The loads that a build asked for, in order. -/
def asked : EStateM.Result LoadError Draft Unit → List (String × Catalog)
  | .ok _ d | .error _ d => d.loads.reverse

def succeeded : EStateM.Result LoadError Draft Unit → Bool
  | .ok .. => true
  | .error .. => false

/-- What happens while `parseFile` loads a file: what is read and built for it, and all that happens
in the loads that its build asks for. -/
def events (src : Sources) (loading : List String) (name : String) (c : Catalog) : List LoadEvent :=
  if _hd : c.isParsed name || loading.contains name then []
  else
    match _hf : src.files.find? name with
    | none => []
    | some file =>
      match src.readSource file with
      | .error _ => [.read name]
      | .ok source =>
        let result :=
          Building.file (src.site loading file name) source { catalog := c, journal := [] }
        let nested := (asked result).flatMap fun load => events src (name :: loading) load.1 load.2
        .read name :: .begun name :: nested ++ [.ended name (succeeded result)]
termination_by (src.idle loading).length
decreasing_by
  refine idle_lt _hf ?_
  simp only [Bool.or_eq_true, not_or] at _hd
  simpa using _hd.2

/-- The changes that a failed build takes back. -/
def takenBack : EStateM.Result LoadError Draft Unit → List Change
  | .ok .. => []
  | .error _ d => d.journal

/-- The changes that are taken back while `parseFile` loads a file: those of the loads that its
build asks for, and then its own ones if it fails. -/
def undone (src : Sources) (loading : List String) (name : String) (c : Catalog) : List Change :=
  if _hd : c.isParsed name || loading.contains name then []
  else
    match _hf : src.files.find? name with
    | none => []
    | some file =>
      match src.readSource file with
      | .error _ => []
      | .ok source =>
        let result :=
          Building.file (src.site loading file name) source { catalog := c, journal := [] }
        ((asked result).flatMap fun load => undone src (name :: loading) load.1 load.2) ++
          takenBack result
termination_by (src.idle loading).length
decreasing_by
  refine idle_lt _hf ?_
  simp only [Bool.or_eq_true, not_or] at _hd
  simpa using _hd.2

/-- What happens at the beginning and at the end of a load, what is taken back, and
what it comes to. -/
inductive Level (src : Sources) (loading : List String) (name : String) (c : Catalog) :
    List LoadEvent → List Change → EStateM.Result LoadError Catalog Unit → Prop
  | passed (h : name ∈ c.parsed ∨ name ∈ loading) : Level src loading name c [] [] (.ok () c)
  | unknown (hf : src.files.find? name = none) :
      Level src loading name c [] [] (.error (.unknownFile name) c)
  | unread {file : ScannedFile} {e : LoadError} (hparsed : name ∉ c.parsed) (hidle : name ∉ loading)
      (hf : src.files.find? name = some file) (hread : src.readSource file = .error e) :
      Level src loading name c [.read name] [] (.error e c)
  | built {file : ScannedFile} {source : FileSource} {d : Draft} (build : Build)
      (hparsed : name ∉ c.parsed) (hidle : name ∉ loading) (hf : src.files.find? name = some file)
      (hread : src.readSource file = .ok source)
      (hresult : Building.file (src.site loading file name) source ⟨c, [], [], []⟩ = .ok () d)
      (hfile : build.file = name) (hjournal : build.journal = d.journal) :
      Level src loading name c
        (.read name :: .begun name :: d.gather (src.events (name :: loading)) ++ [.ended name true])
        (d.gather (src.undone (name :: loading))) (.ok () (d.catalog.conclude build))
  | failed {file : ScannedFile} {source : FileSource} {e : LoadError} {d : Draft}
      (hparsed : name ∉ c.parsed) (hidle : name ∉ loading) (hf : src.files.find? name = some file)
      (hread : src.readSource file = .ok source)
      (hresult : Building.file (src.site loading file name) source ⟨c, [], [], []⟩ = .error e d) :
      Level src loading name c
        (.read name :: .begun name :: d.gather (src.events (name :: loading)) ++
          [.ended name false])
        (d.gather (src.undone (name :: loading)) ++ d.journal)
        (.error e (d.catalog.rollback d.journal))

theorem level (src : Sources) (loading : List String) (name : String) (c : Catalog) :
    src.Level loading name c (src.events loading name c) (src.undone loading name c)
      (src.parseFile loading name c) := by
  rw [events, undone, parseFile]
  by_cases hd : (c.isParsed name || loading.contains name) = true
  · rw [dif_pos hd, dif_pos hd, dif_pos hd]
    exact .passed (by simpa [Catalog.isParsed] using hd)
  rw [dif_neg hd, dif_neg hd, dif_neg hd]
  have hout : name ∉ c.parsed ∧ name ∉ loading := by simpa [Catalog.isParsed] using hd
  obtain ⟨hparsed, hidle⟩ := hout
  cases hf : src.files.find? name with
  | none =>
    dsimp only
    exact .unknown hf
  | some file =>
    dsimp only
    cases hread : src.readSource file with
    | error e => exact .unread hparsed hidle hf hread
    | ok source =>
      dsimp only
      cases hresult : Building.file (src.site loading file name) source ⟨c, [], [], []⟩ with
      | ok u d =>
        have hbuild : buildFile (src.site loading file name) source c =
            .ok d.journal d.catalog := by
          rw [buildFile, hresult]
        unfold site at hbuild
        rw [hbuild]
        simp only [takenBack, List.append_nil]
        exact .built _ hparsed hidle hf hread hresult rfl rfl
      | error e d =>
        have hbuild : buildFile (src.site loading file name) source c =
            .error e (d.catalog.rollback d.journal) := by
          rw [buildFile, hresult]
        unfold site at hbuild
        rw [hbuild]
        exact .failed hparsed hidle hf hread hresult

end Sources

/-- The books of a load: the files that are parsed and those under way, and all that
were read and built. -/
structure Books where
  parsed : List String
  underway : List String := []
  read : List String := []
  built : List String := []

namespace Books

def note (b : Books) : LoadEvent → Books
  | .read f => { b with read := f :: b.read }
  | .begun f => { b with underway := f :: b.underway, built := f :: b.built }
  | .ended f succeeded =>
    { b with
      underway := b.underway.erase f
      parsed := if succeeded then b.parsed ++ [f] else b.parsed }

def noteAll (b : Books) (events : List LoadEvent) : Books :=
  events.foldl note b

/-- The event may come next: a file is entered if it is known, neither parsed nor
under way, and new. -/
def Admits (known : List String) (b : Books) : LoadEvent → Prop
  | .read f => f ∈ known ∧ f ∉ b.parsed ∧ f ∉ b.underway ∧ f ∉ b.read
  | .begun f => f ∈ b.read ∧ f ∈ known ∧ f ∉ b.underway ∧ f ∉ b.built
  | .ended f _ => b.underway.head? = some f

/-- Each event of the row may come when it comes. -/
def Accepts (known : List String) : Books → List LoadEvent → Prop
  | _, [] => True
  | b, event :: events => b.Admits known event ∧ Accepts known (b.note event) events

variable {known : List String} {b : Books}

theorem accepts_append {events events' : List LoadEvent} :
    b.Accepts known (events ++ events') ↔
      b.Accepts known events ∧ (b.noteAll events).Accepts known events' := by
  induction events generalizing b with
  | nil => simp [Accepts, noteAll]
  | cons event events ih =>
    simp only [List.cons_append, Accepts, ih, and_assoc, noteAll, List.foldl_cons]

theorem noteAll_append (b : Books) (events events' : List LoadEvent) :
    b.noteAll (events ++ events') = (b.noteAll events).noteAll events' :=
  List.foldl_append

theorem Accepts.of_prefix {events past : List LoadEvent} (h : b.Accepts known events)
    (hpast : past <+: events) : b.Accepts known past := by
  obtain ⟨rest, rfl⟩ := hpast
  exact (accepts_append.mp h).1

theorem Accepts.admits_of_prefix {events past : List LoadEvent} {event : LoadEvent}
    (h : b.Accepts known events) (hpast : past ++ [event] <+: events) :
    (b.noteAll past).Admits known event :=
  (accepts_append.mp (h.of_prefix hpast)).2.1

theorem read_subset_noteAll (b : Books) (events : List LoadEvent) :
    b.read ⊆ (b.noteAll events).read := by
  induction events generalizing b with
  | nil => exact List.Subset.refl _
  | cons event events ih =>
    refine List.Subset.trans ?_ (ih (b.note event))
    cases event with
    | read f => exact List.subset_cons_self f b.read
    | _ => exact List.Subset.refl _

/-- A file that was entered is not entered again. -/
theorem Accepts.not_read_before {events past past' : List LoadEvent} {file : String}
    (h : b.Accepts known events) (hpast' : past' ++ [.read file] <+: events) :
    ¬ past ++ [.read file] <+: past' := by
  rintro ⟨between, rfl⟩
  obtain ⟨-, -, -, hnew⟩ := h.admits_of_prefix hpast'
  refine hnew ?_
  rw [noteAll_append, noteAll_append]
  exact read_subset_noteAll _ _ List.mem_cons_self

/-- There is one moment only at which a file is entered. -/
theorem Accepts.entered_once {events past past' : List LoadEvent} {file : String}
    (h : b.Accepts known events) (hpast : past ++ [.read file] <+: events)
    (hpast' : past' ++ [.read file] <+: events) : past = past' := by
  rcases List.prefix_or_prefix_of_prefix hpast hpast' with hle | hle
  · exact (List.prefix_concat_iff.mp hle).elim List.append_cancel_right
      fun hbefore => absurd hbefore (h.not_read_before hpast')
  · exact (List.prefix_concat_iff.mp hle).elim (fun heq => (List.append_cancel_right heq).symm)
      fun hbefore => absurd hbefore (h.not_read_before hpast)

/-- What the books are like at all times: no file is under way twice, and none was
read or built twice. -/
structure InOrder (known : List String) (b : Books) : Prop where
  underway : b.underway.Nodup ∧ b.underway ⊆ known
  read : b.read.Nodup ∧ b.read ⊆ known
  built : b.built.Nodup ∧ b.built ⊆ known

theorem inOrder_new (known parsed : List String) : ({ parsed } : Books).InOrder known := by
  constructor <;> exact ⟨List.nodup_nil, List.nil_subset known⟩

theorem InOrder.note (h : b.InOrder known) {event : LoadEvent} (hadmits : b.Admits known event) :
    (b.note event).InOrder known := by
  cases event with
  | read f =>
    obtain ⟨hknown, -, -, hnew⟩ := hadmits
    exact { h with read := ⟨h.read.1.cons hnew, List.cons_subset.mpr ⟨hknown, h.read.2⟩⟩ }
  | begun f =>
    obtain ⟨-, hknown, hidle, hnew⟩ := hadmits
    exact { h with
      underway := ⟨h.underway.1.cons hidle, List.cons_subset.mpr ⟨hknown, h.underway.2⟩⟩
      built := ⟨h.built.1.cons hnew, List.cons_subset.mpr ⟨hknown, h.built.2⟩⟩ }
  | ended f succeeded =>
    exact { h with
      underway := ⟨h.underway.1.erase f, fun _ hx => h.underway.2 (List.mem_of_mem_erase hx)⟩ }

theorem InOrder.noteAll (h : b.InOrder known) {events : List LoadEvent}
    (haccepts : b.Accepts known events) : (b.noteAll events).InOrder known := by
  induction events generalizing b with
  | nil => exact h
  | cons event events ih => exact ih (h.note haccepts.1) haccepts.2

/-- A file that is read makes one event, and one that is built two more, the second one
when its build ends. -/
theorem length_add_underway {events : List LoadEvent} (haccepts : b.Accepts known events) :
    events.length + (b.noteAll events).underway.length + (b.read.length + 2 * b.built.length) =
      (b.noteAll events).read.length + 2 * (b.noteAll events).built.length + b.underway.length := by
  induction events generalizing b with
  | nil => simp only [List.length_nil, noteAll, List.foldl_nil]; omega
  | cons event events ih =>
    have hrest := ih haccepts.2
    have hcons : b.noteAll (event :: events) = (b.note event).noteAll events := rfl
    rw [hcons, List.length_cons]
    cases event with
    | read f => simp only [note, List.length_cons] at hrest ⊢; omega
    | begun f => simp only [note, List.length_cons] at hrest ⊢; omega
    | ended f succeeded =>
      have hfirst : f ∈ b.underway := List.mem_of_head? haccepts.1
      have hone := List.length_erase_add_one hfirst
      simp only [note] at hrest ⊢
      omega

/-- The books at the beginning or at the end of a load: they agree with the catalog. -/
structure Agrees (b : Books) (c : Catalog) (loading : List String) : Prop where
  parsed : b.parsed = c.parsed
  underway : b.underway = loading

/-- Nothing has failed: what was read is parsed or under way. -/
structure Unfailed (b : Books) : Prop where
  read : ∀ f ∈ b.read, f ∈ b.parsed ∨ f ∈ b.underway
  built : b.built ⊆ b.read

/-- The books when a file is entered: it is read, and its build begins. -/
def enter (b : Books) (file : String) : Books :=
  (b.note (.read file)).note (.begun file)

theorem unfailed_new (parsed : List String) : ({ parsed } : Books).Unfailed :=
  ⟨fun _ hf => absurd hf List.not_mem_nil, List.Subset.refl _⟩

section

variable {c : Catalog} {loading : List String} {file : String}

theorem Agrees.enter (h : b.Agrees c loading) : (b.enter file).Agrees c (file :: loading) :=
  ⟨h.parsed, congrArg (List.cons file) h.underway⟩

theorem Unfailed.enter (h : b.Unfailed) : (b.enter file).Unfailed where
  read f hf := by
    rcases List.mem_cons.mp hf with rfl | hf
    · exact .inr List.mem_cons_self
    · exact (h.read f hf).imp_right (List.mem_cons_of_mem file)
  built := List.cons_subset_cons file h.built

/-- A file that is neither parsed nor under way was not read before, if nothing has failed. -/
theorem Agrees.admits_read (hagrees : b.Agrees c loading) (hunfailed : b.Unfailed)
    (hknown : file ∈ known) (hparsed : file ∉ c.parsed) (hidle : file ∉ loading) :
    b.Admits known (.read file) := by
  have hp : file ∉ b.parsed := hagrees.parsed ▸ hparsed
  have hi : file ∉ b.underway := hagrees.underway ▸ hidle
  exact ⟨hknown, hp, hi, fun hread => (hunfailed.read file hread).elim hp hi⟩

theorem accepts_enclosed (hagrees : b.Agrees c loading) (hunfailed : b.Unfailed)
    (hknown : file ∈ known) (hparsed : file ∉ c.parsed) (hidle : file ∉ loading)
    {nested : List LoadEvent} (succeeded : Bool) (hnested : (b.enter file).Accepts known nested)
    (hunderway : ((b.enter file).noteAll nested).underway = file :: loading) :
    b.Accepts known (.read file :: .begun file :: nested ++ [.ended file succeeded]) := by
  have hread := hagrees.admits_read hunfailed hknown hparsed hidle
  have hbegun : (b.note (.read file)).Admits known (.begun file) :=
    ⟨List.mem_cons_self, hknown, hread.2.2.1, fun hbuilt => hread.2.2.2 (hunfailed.built hbuilt)⟩
  refine ⟨hread, hbegun, accepts_append.mpr ⟨hnested, ?_, trivial⟩⟩
  change ((b.enter file).noteAll nested).underway.head? = some file
  rw [hunderway]
  rfl

theorem Agrees.failed (h : b.Agrees c (file :: loading)) :
    (b.note (.ended file false)).Agrees c loading :=
  ⟨h.parsed, by simp [note, h.underway]⟩

theorem Agrees.concluded (h : b.Agrees c (file :: loading)) {build : Build}
    (hfile : build.file = file) : (b.note (.ended file true)).Agrees (c.conclude build) loading :=
  ⟨by simp [note, h.parsed, Catalog.parsed, Catalog.conclude, hfile], by simp [note, h.underway]⟩

theorem Unfailed.concluded (h : b.Unfailed) (hunderway : b.underway = file :: loading) :
    (b.note (.ended file true)).Unfailed where
  read f hf := by
    rcases h.read f hf with hp | hu
    · exact .inl (List.mem_append_left _ hp)
    · rw [hunderway] at hu
      rcases List.mem_cons.mp hu with rfl | hu
      · exact .inl (List.mem_append_right _ (List.mem_singleton_self f))
      · exact .inr (by simpa [note, hunderway] using hu)
  built := h.built

end

theorem Agrees.congr {c c' : Catalog} {loading : List String} (h : b.Agrees c loading)
    (hbuilds : c'.builds = c.builds) : b.Agrees c' loading :=
  ⟨h.parsed.trans (by rw [Catalog.parsed, Catalog.parsed, hbuilds]), h.underway⟩

end Books

namespace Sources

open Books

/-- The books of a load of a file: each event may come when it comes, and they agree with the
catalog in the end. If the load does not fail, then nothing in it has failed. -/
def Recorded (src : Sources) (loading : List String) (name : String) (c : Catalog) (b : Books) :
    Prop :=
  b.Accepts src.files.names (src.events loading name c) ∧
    match src.parseFile loading name c with
    | .ok _ c' => (b.noteAll (src.events loading name c)).Agrees c' loading ∧
        (b.noteAll (src.events loading name c)).Unfailed
    | .error _ c' => (b.noteAll (src.events loading name c)).Agrees c' loading

section

variable {src : Sources} {frames : List Frame} {file : ScannedFile} {name : String}
    {source : FileSource}
  {c : Catalog} {b : Books}
  (hnested : ∀ fr : Frame, fr.file = name → ∀ other c b, (⟨c, []⟩ : Progress).Sound (fr :: frames) →
    b.Agrees c (name :: frames.map Frame.file) → b.Unfailed →
    src.Recorded (name :: frames.map Frame.file) other c b)

include hnested

/-- The books of the loads that a build has asked for, as long as it goes on. -/
theorem accepts_of_turns (hb : b.Agrees c (name :: frames.map Frame.file))
    (hu : b.Unfailed) {d : Draft}
    (hturns : (src.place frames file name source c).Turns ⟨c, [], [], []⟩ d) :
    let nested := d.gather (src.events (name :: frames.map Frame.file))
    b.Accepts src.files.names nested ∧
      (b.noteAll nested).Agrees d.catalog (name :: frames.map Frame.file) ∧
      (b.noteAll nested).Unfailed := by
  induction hturns with
  | refl => exact ⟨trivial, hb, hu⟩
  | @tail d d' _ hturn ih =>
    obtain ⟨haccepts, hagrees, hunfailed⟩ := ih
    cases hturn with
    | own loads builds =>
      rw [Draft.gather, loads]
      exact ⟨haccepts, hagrees.congr builds, hunfailed⟩
    | @load other c' sound scanned answer =>
      obtain ⟨haccepts', hrest⟩ :=
        hnested ((src.place frames file name source c).frame d.journal) rfl other d.catalog _
          sound hagrees
          hunfailed
      rw [show src.parseFile (name :: frames.map Frame.file) other d.catalog =
        .ok () c' from answer] at hrest
      simp only [Draft.gather_loaded, accepts_append, noteAll_append]
      exact ⟨⟨haccepts, haccepts'⟩, hrest⟩

/-- The books of the loads that a build has asked for when it fails. -/
theorem accepts_of_stops (hb : b.Agrees c (name :: frames.map Frame.file)) (hu : b.Unfailed)
    {last d : Draft} {e : LoadError}
    (hturns : (src.place frames file name source c).Turns ⟨c, [], [], []⟩ last)
    (hstops : (src.place frames file name source c).Stops last e d) :
    let nested := d.gather (src.events (name :: frames.map Frame.file))
    b.Accepts src.files.names nested ∧
      (b.noteAll nested).Agrees d.catalog (name :: frames.map Frame.file) := by
  obtain ⟨haccepts, hagrees, hunfailed⟩ := accepts_of_turns hnested hb hu hturns
  cases hstops with
  | own _ => exact ⟨haccepts, hagrees⟩
  | @load e other c' sound scanned answer =>
    obtain ⟨haccepts', hrest⟩ :=
      hnested ((src.place frames file name source c).frame last.journal) rfl other last.catalog _
        sound hagrees
        hunfailed
    rw [show src.parseFile (name :: frames.map Frame.file) other last.catalog =
      .error e c' from answer] at hrest
    simp only [Draft.gather_loaded, accepts_append, noteAll_append]
    exact ⟨⟨haccepts, haccepts'⟩, hrest⟩

end

/-- The books of every load are in order. The induction is on the files that are not being
loaded. -/
theorem recorded (src : Sources) (frames : List Frame) (name : String) (c : Catalog)
    (hs : (⟨c, []⟩ : Progress).Sound frames) {b : Books} (hb : b.Agrees c (frames.map Frame.file))
    (hu : b.Unfailed) : src.Recorded (frames.map Frame.file) name c b := by
  induction hn : (src.idle (frames.map Frame.file)).length using Nat.strongRecOn
    generalizing frames name c b with
  | ind n ih =>
    have hlevel := src.level (frames.map Frame.file) name c
    have hnested {file : ScannedFile} (hf : src.files.find? name = some file)
        (hidle : name ∉ frames.map Frame.file) (fr : Frame) (hfr : fr.file = name) (other : String)
        (c' : Catalog) (b' : Books) (hs' : (⟨c', []⟩ : Progress).Sound (fr :: frames))
        (hb' : b'.Agrees c' (name :: frames.map Frame.file)) (hu' : b'.Unfailed) :
        src.Recorded (name :: frames.map Frame.file) other c' b' := by
      have hrecorded := ih _ ?_ (fr :: frames) other c' hs' (by rwa [List.map_cons, hfr]) hu' rfl
      · rwa [List.map_cons, hfr] at hrecorded
      · rw [← hn, List.map_cons, hfr]
        exact idle_lt hf hidle
    unfold Recorded
    generalize src.events (frames.map Frame.file) name c = events at hlevel ⊢
    generalize src.parseFile (frames.map Frame.file) name c = result at hlevel ⊢
    generalize src.undone (frames.map Frame.file) name c = undone at hlevel
    cases hlevel with
    | passed _ => exact ⟨trivial, hb, hu⟩
    | unknown _ => exact ⟨trivial, hb⟩
    | unread hparsed hidle hf _ =>
      exact ⟨⟨hb.admits_read hu (FileTable.mem_names hf) hparsed hidle, trivial⟩,
        hb.parsed, hb.underway⟩
    | @built file source d build hparsed hidle hf _ hresult hfile =>
      have hturns := src.turns_of_build file source hs hparsed hidle
      rw [hresult] at hturns
      obtain ⟨haccepts, hagrees, hunfailed⟩ :=
        accepts_of_turns (hnested hf hidle) hb.enter hu.enter hturns
      have hunderway := hagrees.underway
      refine ⟨accepts_enclosed hb hu (FileTable.mem_names hf) hparsed hidle true haccepts hunderway,
        ?_⟩
      rw [noteAll_append]
      exact ⟨hagrees.concluded hfile, hunfailed.concluded hunderway⟩
    | @failed file source e d hparsed hidle hf _ hresult =>
      have hturns := src.turns_of_build file source hs hparsed hidle
      rw [hresult] at hturns
      obtain ⟨-, last, hturns, hstops⟩ := hturns
      obtain ⟨haccepts, hagrees⟩ :=
        accepts_of_stops (hnested hf hidle) hb.enter hu.enter hturns hstops
      have hunderway := hagrees.underway
      refine ⟨accepts_enclosed hb hu (FileTable.mem_names hf) hparsed hidle false haccepts
        hunderway, ?_⟩
      rw [noteAll_append]
      exact hagrees.failed.congr (Catalog.builds_rollback _ _)

end Sources

end InterfaceCatalog
