import InterfaceCatalog.Proofs.Build.Members

namespace InterfaceCatalog

open Building

variable {p : Place} {s : Site} {d : Draft}

theorem newlyBacked_class {r r' : ClassRecord}
    (hdoc : r'.documentation = r.documentation ∨ ∀ id ∈ r'.documentation, d.Owns id)
    (hinherits : r'.inherits = r.inherits ∨ ∀ id ∈ r'.inherits, d.catalog.Live id)
    (hfunctions : r'.functions = r.functions ∨ ∀ id ∈ r'.functions, d.Owns id)
    (himplements : r'.implements = r.implements ∨ ∀ id ∈ r'.implements, d.Owns id)
    (hconstructors : r'.constructors = r.constructors ∨ ∀ id ∈ r'.constructors, d.Owns id)
    (hevents : r'.events = r.events ∨ ∀ id ∈ r'.events, d.Owns id)
    (hparts : r'.parts = r.parts ∨ ∀ id ∈ r'.parts, d.Owns id) :
    NewlyBacked (t := .classes) d.catalog d.journal r r' := by
  have owned : ∀ {t : Table} {id : Id t}, d.Owns id → Backed d.catalog d.journal id :=
    fun h => h.backed
  simp only [NewlyBacked, references, List.forall_mem_append, Reference.forall_ofOption,
    Reference.forall_ofList]
  refine ⟨⟨⟨⟨⟨⟨?_, ?_⟩, ?_⟩, ?_⟩, ?_⟩, ?_⟩, ?_⟩
  · exact newly_of_eq_or (fun id h => by simp [Reference.ofOption, Option.mem_def.mp h]) owned hdoc
  · exact newly_of_eq_or (fun id h => by simp [Reference.ofList, h])
      (fun h => .inr ⟨Table.classes_isShared, h⟩) hinherits
  · exact newly_of_eq_or (fun id h => by simp [Reference.ofList, h]) owned hfunctions
  · exact newly_of_eq_or (fun id h => by simp [Reference.ofList, h]) owned himplements
  · exact newly_of_eq_or (fun id h => by simp [Reference.ofList, h]) owned hconstructors
  · exact newly_of_eq_or (fun id h => by simp [Reference.ofList, h]) owned hevents
  · exact newly_of_eq_or (fun id h => by simp [Reference.ofList, h]) owned hparts

/-- A change that sets no more than it is said to keeps the references of a class. New functions are
functions of this class. -/
theorem modifyClass_runs {id : Id .classes} {f : ClassRecord → ClassRecord} {r : ClassRecord}
    (own : d.Owns id) (hr : d.catalog.get? id = some r)
    (hf : ∀ r, label .classes (f r) = label .classes r)
    (hb : ∀ r, NewlyBacked (t := .classes) d.catalog d.journal r (f r))
    (hm : ∀ r, (f r).functions = r.functions ∨ ∀ function ∈ (f r).functions,
      ∃ g : FunctionRecord, d.catalog.get? function = some g ∧ g.classId = some id) :
    Runs p [.inserted .classes id] d (modify (t := .classes) id f)
      fun _ d' => d'.catalog.get? id = some (f r) := by
  have hname (r : ClassRecord) : (f r).fullName = r.fullName := by
    have hlabel := hf r
    simp only [label, Option.some.injEq, Label.mk.injEq] at hlabel
    exact hlabel.1
  have hfits (hd : d.Matched) (r : ClassRecord) (hr : d.catalog.get? id = some r) :
      d.catalog.Fits .classes id (f r) := by
    intro function hmem g hg
    rcases hm r with hsame | hnew
    · exact hd.catalog.fits id r hr function (hsame ▸ hmem) g hg
    · obtain ⟨g', hg', howner⟩ := hnew function hmem
      cases hg'.symm.trans hg
      exact howner
  refine (modify_runs own (fun r _ => hb r) hf hname hfits).imp fun _ d' _ h => ?_
  obtain ⟨r', hr', hget⟩ := h
  cases hr.symm.trans hr'
  exact hget

theorem Draft.Grows.shows_beside {d d' : Draft} {id : Id .classes}
    (g : d.Grows [.inserted .classes id] d') {P : Lookup → Prop} (h : d.Shows P) : d'.Shows P :=
  g.shows_of (fun other r hid _ => by cases List.mem_singleton.mp hid; exact fun h => h) h

/-- The two switches are set by the implements of these names, and all others are stored. -/
theorem storeImplements_runs (hs : p.Hosts s) {id : Id .classes}
    (sources : List ImplementSource) {d : Draft} {r : ClassRecord} (own : d.Owns id)
    (hr : d.catalog.get? id = some r) :
    Runs p [.inserted .classes id] d (storeImplements s id sources) fun ids d' =>
      (∀ i ∈ ids, d'.Owns i) ∧
      d'.catalog.get? id = some { r with
        enablesConstructor := r.enablesConstructor || sources.any (·.name = "class.constructor")
        enablesDestructor := r.enablesDestructor || sources.any (·.name = "class.destructor") } ∧
      d'.Shows fun find => d.catalog.Told →
        List.Forall₂ (ImplementSource.StoredAt find id r.fullName)
        (sources.filter (·.IsExplicit)) ids := by
  -- neither switch is a reference
  have switched {d : Draft} {r r' : ClassRecord} (h : references .classes r' =
    references .classes r) :
      NewlyBacked (t := .classes) d.catalog d.journal r r' := fun _ href => .inl (h ▸ href)
  induction sources generalizing d r with
  | nil => exact Runs.pure ⟨by simp, by simpa using hr, fun _ _ _ => .nil⟩
  | cons source sources ih =>
    unfold storeImplements
    split
    · next hname =>
      refine Runs.bind_same (modifyClass_runs own hr (fun _ => rfl) (fun _ => switched rfl)
        fun _ => .inl rfl)
        (fun _ d₁ g₁ hr₁ => ?_)
      refine (ih (g₁.owns own) hr₁).imp fun ids d₂ _ h => ⟨h.1, ?_, fun find hfind ht => ?_⟩
      · simpa [hname] using h.2.1
      · simpa [ImplementSource.IsExplicit, hname] using h.2.2 find hfind (g₁.told ht)
    split
    · next hname =>
      refine Runs.bind_same (modifyClass_runs own hr (fun _ => rfl) (fun _ => switched rfl)
        fun _ => .inl rfl)
        (fun _ d₁ g₁ hr₁ => ?_)
      refine (ih (g₁.owns own) hr₁).imp fun ids d₂ _ h => ⟨h.1, ?_, fun find hfind ht => ?_⟩
      · simpa [hname] using h.2.1
      · simpa [ImplementSource.IsExplicit, hname] using h.2.2 find hfind (g₁.told ht)
    · next hconstructor hdestructor =>
      refine Runs.bind (storeImplement_runs hs own ⟨r, hr, rfl⟩ source) fun i d₁ g₁ hi => ?_
      refine Runs.bind_same (ih (g₁.owns own) (g₁.kept id r hr List.not_mem_nil))
        (fun ids d₂ g₂ h => ?_)
      refine Runs.pure ⟨by simpa using ⟨g₂.owns hi.1, h.1⟩, ?_, fun find hfind ht => ?_⟩
      · simpa [hconstructor, hdestructor] using h.2.1
      · have hexplicit : source.IsExplicit := ⟨hconstructor, hdestructor⟩
        rw [List.filter_cons_of_pos (by simpa using hexplicit)]
        exact .cons (g₂.shows_beside hi.2 find hfind ht) (h.2.2 find hfind (g₁.told ht))

/-- The class of a file, entered with its first record. -/
abbrev Place.HasClass (p : Place) (d : Draft) (source : ClassSource) (id : Id .classes) : Prop :=
  p.Has d .classes source.name (.classTarget id) id
    { fullName := source.name, file := p.file, kind := source.kind }

theorem Catalog.DeclaresAs.class_found {c : Catalog} {o : Owner} {name : String} {id : Id .classes}
    (h : c.DeclaresAs o .classes name (.classTarget id)) :
    (c.registry.index .classes).find? name = some ⟨name, o.file, id⟩ := by
  obtain ⟨_, _, _, _, htarget, he, _⟩ := h
  cases htarget
  exact he.found

theorem declareClass_runs (hs : p.Hosts s) (source : ClassSource) :
    Runs p (declaring .classes source.name) d (declareClass s source) fun id d' =>
      p.HasClass d' source id ∧
      registrations d'.journal = registrations d.journal ++ declaring .classes source.name := by
  unfold declareClass
  refine Runs.bind (checkAvailable_runs source.name) fun _ d₁ g₁ _ => ?_
  refine Runs.bind (insert_runs ?_ fun _ _ hlisted => by simp at hlisted) fun id d₂ g₂ hid => ?_
  · simp [AllBacked, references, Reference.ofOption, Reference.ofList]
  obtain ⟨own, hr, -, hnew⟩ := hid
  rw [hs.file_eq] at hr
  have hlabel : d₂.catalog.label? id = some ⟨source.name, p.file, .listed .classes⟩ := by
    rw [Catalog.label?, hr]
    rfl
  have he : Enters p s .classes .classTarget (register s .classes) :=
    enters_register hs .classes fun _ => rfl
  rw [← bind_assoc]
  refine Runs.bind_same (he rfl own hlabel hnew) fun _ d₃ g₃ h₃ => ?_
  refine Runs.pure ⟨⟨g₃.owns own, g₃.kept _ _ hr (by simp [declaring]), h₃.1⟩, ?_⟩
  rw [h₃.2, (g₁.trans g₂).unnamed (by simp)]

theorem lasting_member : Lasting [] fun (ids : Id .functions × Id .implements) d =>
    d.Owns ids.1 ∧ d.Owns ids.2 :=
  fun _ g h => ⟨g.owns h.1, g.owns h.2⟩

/-- A class that is filled has all the parents that it lists, and all that it is written with. Its
functions can be told apart and used, and the parameters that they share are stored. -/
theorem fillClass_runs (hs : p.Hosts s) {id : Id .classes} (source : ClassSource) (own : d.Owns id)
    (hr : d.catalog.get? id =
      some { fullName := source.name, file := p.file, kind := source.kind }) :
    Runs p [.inserted .classes id] d (fillClass s id source) fun _ d' =>
      ∃ r, d'.catalog.get? id = some r ∧ r.fullName = source.name ∧
        r.inherits.length = source.inherits.length ∧
        d'.Shows fun find => d.catalog.Told → source.StoredAs find p.file id r ∧ source.WellFormed ∧
          ∀ a ∈ functionSources source, a.SharesAt find := by
  unfold fillClass
  refine Runs.bind (documentation_runs source.documentation) fun doc d₁ g₁ hdoc => ?_
  refine Runs.bind (each_runs (lasting_live _) fun a _ _ _ =>
    (resolveClass_runs hs a).imp fun _ _ _ h => h.1)
    fun inherits d₂ g₂ hinherits => ?_
  have own₂ := (g₁.trans g₂).owns own
  refine Runs.bind_same (modifyClass_runs own₂ ((g₁.trans g₂).kept id _ hr List.not_mem_nil)
    (fun _ => rfl)
    (fun r => newlyBacked_class (.inr fun i hi => g₂.owns (hdoc.1 i hi)) (.inr hinherits.2)
      (.inl rfl) (.inl rfl) (.inl rfl) (.inl rfl) (.inl rfl))
    fun _ => .inl rfl) (fun _ d₃ g₃ hr₃ => ?_)
  have own₃ := g₃.owns own₂
  refine Runs.bind (distinctly_stored_runs lasting_member fun a _ d' g =>
    storeFunctionSource_runs hs (g.owns own₃) (g.classNamed ⟨_, hr₃, rfl⟩) a)
    fun members d₄ g₄ hmembers => ?_
  have own₄ := g₄.owns own₃
  refine Runs.bind_same (modifyClass_runs own₄ (g₄.kept id _ hr₃ List.not_mem_nil) (fun _ => rfl)
    (fun r => newlyBacked_class (.inl rfl) (.inl rfl)
      (.inr (List.forall_mem_map.mpr fun m hm => (hmembers.1 m hm).1))
      (.inl rfl) (.inl rfl) (.inl rfl) (.inl rfl))
    fun _ => .inr (List.forall_mem_map.mpr fun m hm => ?_)) (fun _ d₅ g₅ hr₅ => ?_)
  · exact forall_mem_of_forall₂ (hmembers.2.1.self.imp fun _ _ h => h.1.function) m hm
  have own₅ := g₅.owns own₄
  refine Runs.bind (distinctly_stored_runs (lasting_owns _)
    fun a _ d' g => storeEvent_runs hs (g.owns own₅) a) fun events d₆ g₆ hevents => ?_
  refine Runs.bind (distinctly_stored_runs (lasting_owns _) fun a _ _ _ => storePart_runs hs a)
    fun parts d₇ g₇ hparts => ?_
  have own₇ := (g₆.trans g₇).owns own₅
  refine Runs.bind_same (modifyClass_runs own₇ ((g₆.trans g₇).kept id _ hr₅ List.not_mem_nil)
    (fun _ => rfl)
    (fun r => newlyBacked_class (.inl rfl) (.inl rfl) (.inl rfl) (.inl rfl) (.inl rfl)
      (.inr fun i hi => g₇.owns (hevents.1 i hi)) (.inr hparts.1))
    fun _ => .inl rfl) (fun _ d₈ g₈ hr₈ => ?_)
  have own₈ := g₈.owns own₇
  refine Runs.bind_same (storeImplements_runs hs source.implements own₈ hr₈)
    (fun implements d₉ g₉ himplements => ?_)
  have own₉ := g₉.owns own₈
  have hclass : d₉.catalog.ClassNamed source.name id := ⟨_, himplements.2.1, rfl⟩
  refine Runs.bind (each_stored_runs (R := fun a i find => d₉.catalog.Told →
      a.StoredAt find source.name i) (lasting_owns _) fun a _ d' g => ?_)
    fun constructors d₁₀ g₁₀ hconstructors => ?_
  · refine (storeConstructor_runs hs (g.classNamed hclass) a).imp fun i d'' _ h => ?_
    exact ⟨h.1, fun find hfind ht => h.2 find hfind (g.told ht)⟩
  have hfinal := modifyClass_runs (p := p) (f := fun r => { r with
      implements := members.map (·.2) ++ implements, constructors }) (g₁₀.owns own₉)
    (g₁₀.kept id _ himplements.2.1 List.not_mem_nil) (fun _ => rfl) (fun r =>
      newlyBacked_class (.inl rfl) (.inl rfl) (.inl rfl) (.inr fun i hi => ?_)
        (.inr hconstructors.1) (.inl rfl) (.inl rfl)) fun _ => .inl rfl
  · refine hfinal.imp fun _ d₁₁ g₁₁ hr₁₁ => ⟨_, hr₁₁, rfl, hinherits.1, fun find hfind ht => ?_⟩
    have later₁₀ : ∀ {P : Lookup → Prop}, d₁₀.Shows P → P find :=
      fun h => g₁₁.shows_beside h find hfind
    have later₈ : ∀ {P : Lookup → Prop}, d₈.Shows P → P find := fun h =>
      later₁₀ (g₁₀.shows (g₉.shows_beside h))
    have later₄ : ∀ {P : Lookup → Prop}, d₄.Shows P → P find := fun h =>
      later₈ (g₈.shows_beside ((g₆.trans g₇).shows (g₅.shows_beside h)))
    have ht₃ : d₃.catalog.Told := g₃.told ((g₁.trans g₂).told ht)
    have ht₈ : d₈.catalog.Told := g₈.told ((g₆.trans g₇).told (g₅.told (g₄.told ht₃)))
    have ht₉ : d₉.catalog.Told := g₉.told ht₈
    have hbuilt := later₄ hmembers.2.1
    refine ⟨⟨doc, inherits, members, implements, constructors, events, parts, rfl, ?_, hinherits.1,
      hbuilt.imp fun _ _ h => h.1, ?_, ?_, later₈ (g₈.shows_beside (g₇.shows hevents.2.1)),
      later₈ (g₈.shows_beside hparts.2.1)⟩, ⟨hmembers.2.2,
      forall_mem_of_forall₂ (hbuilt.flip.imp fun _ _ h => h.2.1)⟩,
      forall_mem_of_forall₂ (hbuilt.flip.imp fun _ _ h => h.2.2)⟩
    · exact later₄ (g₄.shows (g₃.shows_beside (g₂.shows hdoc.2)))
    · exact later₁₀ (g₁₀.shows himplements.2.2) ht₈
    · exact (later₁₀ hconstructors.2).imp fun _ _ h => h ht₉
  · rcases List.mem_append.mp hi with hi | hi
    · obtain ⟨m, hm, rfl⟩ := List.mem_map.mp hi
      have hm₇ := g₇.owns (g₆.owns (g₅.owns (hmembers.1 m hm).2))
      exact g₁₀.owns (g₉.owns (g₈.owns hm₇))
    · exact g₁₀.owns (himplements.1 i hi)

end InterfaceCatalog
