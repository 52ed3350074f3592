import InterfaceCatalog.Proofs.Build.Loading

namespace InterfaceCatalog

/-- A build went for live records only, and all that it had loaded was loaded on a catalog that is
accounted for, while the build itself was under way. -/
structure Draft.Traced (d : Draft) (p : Place) : Prop where
  safe : d.IsSafe
  sound : ∀ load ∈ d.loads, ∃ journal, (⟨load.2, []⟩ : Progress).Sound (p.frame journal :: p.outer)

namespace Draft.Traced

variable {p : Place} {d d' : Draft}

theorem begin (p : Place) (c : Catalog) : Draft.Traced ⟨c, [], [], []⟩ p :=
  ⟨fun _ ha => absurd ha List.not_mem_nil, fun _ hl => absurd hl List.not_mem_nil⟩

theorem loaded (h : d.Traced p) (hs : (p.progress d).Sound p.outer) (file : String) (c : Catalog) :
    (d.loaded file c).Traced p :=
  ⟨h.safe, List.forall_mem_cons.mpr ⟨⟨d.journal, hs⟩, h.sound⟩⟩

theorem turn (h : d.Traced p) (ht : p.Turn d d') : d'.Traced p := by
  cases ht with
  | own loads _ _ _ safe => exact ⟨safe h.safe, loads ▸ h.sound⟩
  | load sound _ _ => exact h.loaded sound _ _

theorem turns (h : d.Traced p) (ht : p.Turns d d') : d'.Traced p := by
  induction ht with
  | refl => exact h
  | tail _ hturn ih => exact ih.turn hturn

theorem stops (h : d.Traced p) {e : LoadError} (hs : p.Stops d e d') : d'.Traced p := by
  cases hs with
  | own _ => exact h
  | load sound _ _ => exact h.loaded sound _ _

end Draft.Traced

namespace Sources

/-- The state that a build ends in. -/
def ending : EStateM.Result LoadError Draft Unit → Draft
  | .ok _ d | .error _ d => d

/-- The records that are read or changed by their handles while `parseFile` loads a file: those of
the loads that its build asks for, and its own ones. -/
def accesses (src : Sources) (loading : List String) (name : String) (c : Catalog) : List Access :=
  if _hd : c.isParsed name || loading.contains name then []
  else
    match _hf : src.files.find? name with
    | none => []
    | some file =>
      match src.readSource file with
      | .error _ => []
      | .ok source =>
        let d :=
          ending (Building.file (src.site loading file name) source { catalog := c, journal := [] })
        d.loads.reverse.flatMap (fun load => accesses src (name :: loading) load.1 load.2) ++
          d.accesses.reverse
termination_by (src.idle loading).length
decreasing_by
  refine idle_lt _hf ?_
  simp only [Bool.or_eq_true, not_or] at _hd
  simpa using _hd.2

/-- A build leaves such a trace whether it fails or not. -/
theorem traced_of_build (src : Sources) {frames : List Frame} (file : ScannedFile) {name : String}
    (source : FileSource) {c : Catalog} (hs : (⟨c, []⟩ : Progress).Sound frames)
    (hparsed : name ∉ c.parsed) (hidle : name ∉ frames.map Frame.file) :
    (ending
      (Building.file (src.site (frames.map Frame.file) file name) source ⟨c, [], [], []⟩)).Traced
      (src.place frames file name source c) := by
  have hbegin := Draft.Traced.begin (src.place frames file name source c) c
  have hturns := src.turns_of_build file source hs hparsed hidle
  cases hresult : Building.file (src.site (frames.map Frame.file) file name) source
      ⟨c, [], [], []⟩ with
  | ok u d =>
    rw [hresult] at hturns
    exact hbegin.turns hturns
  | error e d =>
    rw [hresult] at hturns
    obtain ⟨-, last, hturns, hstops⟩ := hturns
    exact (hbegin.turns hturns).stops hstops

/-- Every record that is read or changed during a load is live at that moment. The induction is on
the files that are not being loaded. -/
theorem live_of_accesses (src : Sources) (frames : List Frame) (name : String) (c : Catalog)
    (hs : (⟨c, []⟩ : Progress).Sound frames) :
    ∀ a ∈ src.accesses (frames.map Frame.file) name c, a.live := by
  induction hn : (src.idle (frames.map Frame.file)).length using Nat.strongRecOn
    generalizing frames name c with
  | ind n ih =>
    rw [accesses]
    split
    · exact fun _ ha => absurd ha List.not_mem_nil
    next hd =>
    have hout : name ∉ c.parsed ∧ name ∉ frames.map Frame.file := by
      simpa [Catalog.isParsed] using hd
    obtain ⟨hparsed, hidle⟩ := hout
    split
    · exact fun _ ha => absurd ha List.not_mem_nil
    next file hfile =>
    split
    · exact fun _ ha => absurd ha List.not_mem_nil
    next source _ =>
    have htraced := src.traced_of_build file source hs hparsed hidle
    intro a ha
    rcases List.mem_append.mp ha with hnested | hown
    · obtain ⟨load, hload, hnested⟩ := List.mem_flatMap.mp hnested
      obtain ⟨journal, hsound⟩ := htraced.sound load (List.mem_reverse.mp hload)
      have hlt : (src.idle (name :: frames.map Frame.file)).length < n := hn ▸ idle_lt hfile hidle
      exact ih _ hlt _ load.1 load.2 hsound rfl a hnested
    · exact htraced.safe a (List.mem_reverse.mp hown)

end Sources

end InterfaceCatalog
