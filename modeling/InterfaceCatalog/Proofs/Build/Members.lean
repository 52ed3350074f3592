import InterfaceCatalog.Proofs.Build.Declarations
import InterfaceCatalog.Proofs.Text.Qualified

namespace InterfaceCatalog

open Building

variable {p : Place} {s : Site} {d : Draft}

theorem Catalog.ClassNamed.bears {c : Catalog} {className : String} {id : Id .classes}
    (h : c.ClassNamed className id) {f : FunctionRecord} {fullName : String}
    (hf : f.classId = some id) (hn : fullName = className ++ "." ++ f.name) :
    c.Bears id fullName f := by
  refine ⟨hf, fun r hr => ?_⟩
  obtain ⟨r', hr', rfl⟩ := h
  cases hr'.symm.trans hr
  exact hn

/-- A function refers to its implement only once both are there. -/
theorem storeFunction_runs {function : FunctionRecord}
    {implement : Id .functions → Building ImplementRecord}
    {P : Id .functions → ImplementRecord → Lookup → Prop}
    (hf : AllBacked (t := .functions) d.catalog d.journal function)
    (hopen : ¬ IsFinal .functions function) (husable : function.IsUsable)
    (howner : ∀ id ∈ function.classId, d.Owns id)
    (hi : ∀ id d', d.Grows [] d' → d'.Owns id → d'.catalog.get? id = some function →
      Runs p [] d' (implement id) fun r d'' =>
      (AllBacked (t := .implements) d''.catalog d''.journal r ∧
        ∀ i, d''.Suits .implements i r) ∧ d''.Shows (P id r)) :
    Runs p [] d (storeFunction function implement) fun ids d' => (d'.Owns ids.1 ∧ d'.Owns ids.2) ∧
      d'.Shows fun find =>
      ∃ r, find .functions ids.1 = some { function with implement := some ids.2 } ∧
        find .implements ids.2 = some r ∧ P ids.1 r find := by
  refine Runs.sound fun hsound => ?_
  have hrun : Runs p [.inserted .functions (d.catalog.next .functions)] d
      (storeFunction function implement) fun ids d' => (d'.Owns ids.1 ∧ d'.Owns ids.2) ∧
        d'.Shows fun find =>
        ∃ r, find .functions ids.1 = some { function with implement := some ids.2 } ∧
          find .implements ids.2 = some r ∧ P ids.1 r find := by
    unfold storeFunction
    refine Runs.bind (insert_runs hf fun _ => ⟨husable, howner⟩) fun id d₁ g₁ hid => ?_
    obtain ⟨own, hget, rfl, -⟩ := hid
    refine Runs.bind (hi _ d₁ g₁ own hget) fun r d₂ g₂ hr => ?_
    refine Runs.bind (insertPart_runs hr.1.1 trivial fun _ => hr.1.2 _)
      fun implementId d₃ g₃ himpl => ?_
    have own₃ := (g₂.trans g₃).owns own
    have hget₃ := (g₂.trans g₃).kept _ _ hget List.not_mem_nil
    refine Runs.bind_same (modify_runs own₃ (fun r _ => ?_) (fun _ => rfl) (fun _ => rfl)
      fun hm r hr => hm.catalog.fits _ r hr) (fun _ d₄ g₄ h₄ => ?_)
    · intro ref href
      simp only [references, List.mem_append] at href
      rcases href with href | href
      · exact .inl (by simp only [references, List.mem_append]; exact .inl href)
      · have he : ref = ⟨_, implementId⟩ := by simpa [Reference.ofOption] using href
        exact .inr (he ▸ himpl.1.backed)
    · obtain ⟨f, hf, hget₄⟩ := h₄
      cases hget₃.symm.trans hf
      -- The function was not among the parts before it got its implement.
      have later : ∀ {Q : Lookup → Prop}, d₃.Shows Q →
          d₄.Shows Q := g₄.shows_of fun other r hid hr => by
        cases List.mem_singleton.mp hid
        cases hget₃.symm.trans hr
        exact hopen
      refine Runs.pure ⟨⟨g₄.owns own₃, g₄.owns himpl.1⟩, fun find hfind => ⟨r, ?_, ?_, ?_⟩⟩
      · exact hfind _ _ (.inr rfl) (g₄.owns own₃) hget₄
      · exact later himpl.2 find hfind
      · exact later (g₃.shows hr.2) find hfind
  refine hrun.fresh (fun id hl hmem => ?_) (by simp)
  cases List.mem_singleton.mp hmem
  have hnone := Catalog.get?_next (Accounted.wellFormed hsound : d.catalog.WellFormed) .functions
  simp [Catalog.Live, hnone] at hl

theorem ownsAll_accessor {r : AccessorRecord} (hr : d.OwnsAll r.result.references)
    (hk : ∀ id ∈ r.keys, d.Owns id) (hv : ∀ id ∈ r.values, d.Owns id) : d.OwnsAll r.references := by
  simp only [Draft.OwnsAll, AccessorRecord.references, List.forall_mem_append,
    Reference.forall_ofList]
  exact ⟨⟨hr, hk⟩, hv⟩

theorem allBacked_function {f : FunctionRecord} (hc : ∀ id ∈ f.classId, d.Owns id)
    (hp : ∀ id ∈ f.parameters, d.Owns id)
    (ha : ∀ o ∈ [f.method, f.getter, f.setter], ∀ a ∈ o, d.OwnsAll a.references)
    (hi : f.implement = none) : AllBacked (t := .functions) d.catalog d.journal f := by
  have accessor : ∀ o ∈ [f.method, f.getter, f.setter],
      ∀ ref ∈ o.toList.flatMap AccessorRecord.references, Backed d.catalog d.journal ref.id := by
    intro o ho ref href
    obtain ⟨a, hmem, href⟩ := List.mem_flatMap.mp href
    exact (ha o ho a (Option.mem_toList.mp hmem) ref href).backed
  simp only [AllBacked, references, List.forall_mem_append, Reference.forall_ofOption,
    Reference.forall_ofList]
  refine ⟨⟨⟨⟨⟨fun id hid => (hc id hid).backed, fun id hid => (hp id hid).backed⟩, ?_⟩, ?_⟩, ?_⟩,
    ?_⟩
  · exact accessor _ (by simp)
  · exact accessor _ (by simp)
  · exact accessor _ (by simp)
  · simp [hi]

theorem allBacked_implement {r : ImplementRecord} (hc : Backed d.catalog d.journal r.classId)
    (hi : d.Owns r.implementingClass) (hf : Backed d.catalog d.journal r.function)
    (hd : ∀ o ∈ [r.documentation, r.getterDocumentation, r.setterDocumentation], ∀ id ∈ o,
      d.Owns id) :
    AllBacked (t := .implements) d.catalog d.journal r := by
  simp only [AllBacked, references, List.forall_mem_append, List.forall_mem_cons,
    Reference.forall_ofOption]
  refine ⟨⟨⟨⟨hc, hi.backed, hf, by simp⟩, ?_⟩, ?_⟩, ?_⟩
  · exact fun id hid => (hd _ (by simp) id hid).backed
  · exact fun id hid => (hd _ (by simp) id hid).backed
  · exact fun id hid => (hd _ (by simp) id hid).backed

theorem storeMethod_runs (hs : p.Hosts s) {classId : Id .classes} (own : d.Owns classId)
    {className : String} (hclass : d.catalog.ClassNamed className classId) (source : MethodSource) :
    Runs p [] d (storeMethod s classId className source) fun ids d' =>
      (d'.Owns ids.1 ∧ d'.Owns ids.2) ∧
      d'.Shows fun find => source.StoredAt find classId className ids := by
  unfold storeMethod
  refine Runs.bind (storeParameters_runs hs _ source.parameters) fun ps d₁ g₁ hps => ?_
  refine Runs.bind (storeReturn_runs hs source.result) fun result d₂ g₂ hresult => ?_
  have own₂ := (g₁.trans g₂).owns own
  refine (storeFunction_runs (P := fun id r find => ∃ documentation,
    r = {
      fullName := className ++ "." ++ source.name, classId, implementingClass := classId
      function := id, coversGetter := false, coversSetter := false
      getter := { pureVirtual := source.pureVirtual }, setter := {}
      documentation, getterDocumentation := none, setterDocumentation := none } ∧
    Option.Rel (DocumentationSource.StoredAt find) source.documentation documentation)
    ?_ (by simp [IsFinal]) (by simp [FunctionRecord.IsUsable, FunctionRecord.isProperty])
    (by simpa using own₂)
      fun id d₃ g₃ hid hget => ?_).imp fun ids d₄ g₄ h => ⟨h.1, fun find hfind => ?_⟩
  · refine allBacked_function (by simpa using own₂) (fun id hid => g₂.owns (hps.1 id hid)) ?_ rfl
    simpa using ownsAll_accessor hresult.1 (by simp) (by simp)
  · refine Runs.bind (documentation_runs source.documentation) fun doc d₄ g₄ hdoc => ?_
    have own₄ := (g₃.trans g₄).owns own₂
    have hclass₄ := (((g₁.trans g₂).trans g₃).trans g₄).classNamed hclass
    refine Runs.pure ⟨⟨?_, fun _ f hf => ?_⟩, fun find hfind => ⟨doc, rfl, hdoc.2 find hfind⟩⟩
    · exact allBacked_implement own₄.backed own₄ (g₄.backed hid) (by simpa using hdoc.1)
    · cases (g₄.kept id _ hget List.not_mem_nil).symm.trans hf
      exact ⟨hclass₄.bears rfl rfl, ImplementRecord.fits_method rfl rfl rfl⟩
  · obtain ⟨_, hfunction, himplement, doc, rfl, hdoc⟩ := h.2 find hfind
    exact ⟨ps, result, doc, hfunction, himplement, (g₂.trans g₄).shows hps.2 find hfind,
      g₄.shows hresult.2 find hfind, hdoc⟩

theorem parametersOr_runs (hs : p.Hosts s) (owner : String) {inherited : List (Id .parameters)}
    {sources : List ParameterSource} (hi : ∀ id ∈ inherited, d.Owns id)
    (hstored : d.Shows fun find => List.Forall₂ (ParameterSource.StoredAt find) sources inherited)
    (o : Option (List ParameterSource)) :
    Runs p [] d (parametersOr s owner inherited o) fun ids d' => (∀ id ∈ ids, d'.Owns id) ∧
      d'.Shows fun find => List.Forall₂ (ParameterSource.StoredAt find) (o.getD sources) ids := by
  cases o with
  | none => exact Runs.pure ⟨hi, hstored⟩
  | some own => exact storeParameters_runs hs owner own

theorem storeAccessor_runs (hs : p.Hosts s) (owner : String) {keys values : List (Id .parameters)}
    {keySources valueSources : List ParameterSource} (hk : ∀ id ∈ keys, d.Owns id)
    (hkeys : d.Shows fun find => List.Forall₂ (ParameterSource.StoredAt find) keySources keys)
    (hv : ∀ id ∈ values, d.Owns id)
    (hvalues : d.Shows fun find => List.Forall₂ (ParameterSource.StoredAt find) valueSources values)
    (source : AccessorSource) :
    Runs p [] d (storeAccessor s owner keys values source) fun r d' => d'.OwnsAll r.references ∧
      d'.Shows fun find => source.StoredAs find keySources valueSources r := by
  unfold storeAccessor
  refine Runs.bind (parametersOr_runs hs owner hk hkeys source.keys) fun ks d₁ g₁ hks => ?_
  refine Runs.bind
    (parametersOr_runs hs owner (fun id hid => g₁.owns (hv id hid)) (g₁.shows hvalues)
    source.values) fun vs d₂ g₂ hvs => ?_
  refine Runs.bind (storeReturn_runs hs source.result) fun result d₃ g₃ hresult => ?_
  refine Runs.pure ⟨ownsAll_accessor hresult.1 (fun id hid => (g₂.trans g₃).owns (hks.1 id hid))
    fun id hid => g₃.owns (hvs.1 id hid), fun find hfind => ?_⟩
  exact ⟨result, ks, vs, rfl, hresult.2 find hfind, (g₂.trans g₃).shows hks.2 find hfind,
    g₃.shows hvs.2 find hfind⟩

theorem propertyKind_eq (source : PropertySource) :
    propertyKind source = if source.getter.isNone then .setter
      else if source.setter.isNone then .getter else .property := by
  unfold propertyKind
  cases source.getter <;> cases source.setter <;> rfl

theorem storeProperty_runs (hs : p.Hosts s) {classId : Id .classes} (own : d.Owns classId)
    {className : String} (hclass : d.catalog.ClassNamed className classId)
    (source : PropertySource) :
    Runs p [] d (storeProperty s classId className source) fun ids d' =>
      (d'.Owns ids.1 ∧ d'.Owns ids.2) ∧
      d'.Shows fun find => source.StoredAt find classId className ids ∧
        (FunctionSource.property source).IsUsable ∧
        (FunctionSource.property source).SharesAt find := by
  unfold storeProperty
  refine Runs.guarded (fun h => h) fun hempty => ?_
  have hsome : source.getter.isSome ∨ source.setter.isSome := by
    simpa [Option.isSome_iff_ne_none, or_iff_not_imp_left] using hempty
  refine Runs.bind (storeParameters_runs hs _ source.keys) fun keys d₁ g₁ hkeys => ?_
  refine Runs.bind (storeParameters_runs hs _ source.values) fun values d₂ g₂ hvalues => ?_
  have hkeys₂ := fun id hid => g₂.owns (hkeys.1 id hid)
  refine Runs.bind (optional_stored_runs fun a _ =>
    storeAccessor_runs hs _ hkeys₂ (g₂.shows hkeys.2)
    hvalues.1 hvalues.2 a) fun getter d₃ g₃ hgetter => ?_
  refine Runs.bind (optional_stored_runs fun a _ => storeAccessor_runs hs _
    (fun id hid => g₃.owns (hkeys₂ id hid)) ((g₂.trans g₃).shows hkeys.2)
    (fun id hid => g₃.owns (hvalues.1 id hid)) (g₃.shows hvalues.2) a)
    fun setter d₄ g₄ hsetter => ?_
  have hreadable : getter.isSome = source.getter.isSome := isSome_eq_of_rel hgetter.2.self
  have hwritable : setter.isSome = source.setter.isSome := isSome_eq_of_rel hsetter.2.self
  have own₄ := (((g₁.trans g₂).trans g₃).trans g₄).owns own
  have husable : getter.isSome ∨ setter.isSome := by
    rw [hreadable, hwritable]
    exact hsome
  rw [propertyKind_eq]
  refine (storeFunction_runs (P := fun id r find =>
    ∃ documentation getterDocumentation setterDocumentation,
    r = {
      fullName := className ++ "." ++ source.name, classId, implementingClass := classId
      function := id, coversGetter := source.getter.isSome, coversSetter := source.setter.isSome
      getter := { pureVirtual := source.getter.any (·.pureVirtual) }
      setter := { pureVirtual := source.setter.any (·.pureVirtual) }
      documentation, getterDocumentation, setterDocumentation } ∧
    Option.Rel (DocumentationSource.StoredAt find) source.documentation documentation ∧
    Option.Rel (DocumentationSource.StoredAt find) (source.getter.bind (·.documentation))
      getterDocumentation ∧
    Option.Rel (DocumentationSource.StoredAt find) (source.setter.bind (·.documentation))
      setterDocumentation)
    ?_ (by simp only [IsFinal]; split_ifs <;> simp) ?_ (by simpa using own₄)
      fun id d₅ g₅ hid hget => ?_).imp fun ids d₅ g₅ h => ⟨h.1, fun find hfind => ?_⟩
  · refine allBacked_function (by simpa using own₄) (by simp) ?_ rfl
    simpa using ⟨fun a ha => g₄.ownsAll (hgetter.1 a ha), hsetter.1⟩
  · exact fun _ => husable
  · refine Runs.bind (documentation_runs _) fun doc d₆ g₆ hdoc => ?_
    refine Runs.bind (documentation_runs _) fun getterDoc d₇ g₇ hgetterDoc => ?_
    refine Runs.bind (documentation_runs _) fun setterDoc d₈ g₈ hsetterDoc => ?_
    have g := (g₆.trans g₇).trans g₈
    have own₈ := (g₅.trans g).owns own₄
    have hclass₈ := ((((g₁.trans g₂).trans g₃).trans g₄).trans (g₅.trans g)).classNamed hclass
    refine Runs.pure ⟨⟨allBacked_implement own₈.backed own₈ (g.backed hid) ?_, fun _ f hf => ?_⟩,
      fun find hfind => ⟨doc, getterDoc, setterDoc, rfl, (g₇.trans g₈).shows hdoc.2 find hfind,
        g₈.shows hgetterDoc.2 find hfind, hsetterDoc.2 find hfind⟩⟩
    · simpa using ⟨fun i hi => (g₇.trans g₈).owns (hdoc.1 i hi), fun i hi =>
        g₈.owns (hgetterDoc.1 i hi), hsetterDoc.1⟩
    · cases (g.kept id _ hget List.not_mem_nil).symm.trans hf
      refine ⟨hclass₈.bears rfl rfl, ImplementRecord.fits_property ?_ (fun _ => husable)
        hreadable.symm hwritable.symm (fun h => ?_) fun h => ?_⟩
      · dsimp only
        split_ifs <;> simp
      · have hnone : source.getter = none := by simpa using hreadable.symm.trans h
        simp [hnone]
      · have hnone : source.setter = none := by simpa using hwritable.symm.trans h
        simp [hnone]
  · obtain ⟨_, hfunction, himplement, doc, getterDoc, setterDoc, rfl, hdocs⟩ := h.2 find hfind
    have g := (g₃.trans g₄).trans g₅
    exact ⟨⟨getter, setter, doc, getterDoc, setterDoc, hfunction, himplement,
      (g₄.trans g₅).shows hgetter.2 find hfind, g₅.shows hsetter.2 find hfind, hdocs⟩, hsome,
      ⟨keys, (g₂.trans g).shows hkeys.2 find hfind⟩, values, g.shows hvalues.2 find hfind⟩

theorem storeFunctionSource_runs (hs : p.Hosts s) {classId : Id .classes} (own : d.Owns classId)
    {className : String} (hclass : d.catalog.ClassNamed className classId)
    (source : FunctionSource) :
    Runs p [] d (storeFunctionSource s classId className source) fun ids d' =>
      (d'.Owns ids.1 ∧ d'.Owns ids.2) ∧
      d'.Shows fun find => source.StoredAt find classId className ids ∧ source.IsUsable ∧
        source.SharesAt find := by
  cases source with
  | method source =>
    exact (storeMethod_runs hs own hclass source).imp fun _ _ _ h =>
      ⟨h.1, fun find hfind => ⟨h.2 find hfind, trivial, trivial⟩⟩
  | property source => exact storeProperty_runs hs own hclass source

theorem storeEvent_runs (hs : p.Hosts s) {classId : Id .classes} (own : d.Owns classId)
    (source : EventSource) :
    Runs p [] d (storeEvent s classId source)
      fun id d' => d'.Owns id ∧ d'.Shows fun find => source.StoredAt find classId id := by
  unfold storeEvent
  refine Runs.bind (optional_stored_runs fun a _ => resolveType_runs hs a)
    fun type d₁ g₁ htype => ?_
  refine Runs.bind (documentation_runs source.documentation) fun doc d₂ g₂ hdoc => ?_
  refine Runs.weaken (insertPart_runs ?_ trivial fun _ => trivial) fun id d₃ g₃ hid =>
    ⟨hid.1, fun find hfind => ?_⟩
  · simp only [AllBacked, references, List.forall_mem_cons, List.forall_mem_append,
      Reference.forall_ofOption]
    exact ⟨(g₁.trans g₂).backed own, fun id hid => g₂.backed (htype.1 id hid),
      fun id hid => (hdoc.1 id hid).backed⟩
  · exact ⟨type, doc, hid.2 find hfind, (g₂.trans g₃).shows htype.2 find hfind,
      g₃.shows hdoc.2 find hfind⟩

theorem storePart_runs (hs : p.Hosts s) (source : PartSource) :
    Runs p [] d (storePart s source)
      fun id d' => d'.Owns id ∧ d'.Shows fun find => source.StoredAt find id := by
  unfold storePart
  refine Runs.bind (resolveClass_runs hs source.className) fun classId d₁ _ hclass => ?_
  refine Runs.bind (documentation_runs source.documentation) fun doc d₂ g₂ hdoc => ?_
  refine Runs.weaken (insertPart_runs ?_ trivial fun _ => trivial) fun id d₃ g₃ hid =>
    ⟨hid.1, fun find hfind => ?_⟩
  · simp only [AllBacked, references, List.forall_mem_cons, Reference.forall_ofOption]
    exact ⟨g₂.backed_of_live Table.classes_isShared hclass.1, fun id hid => (hdoc.1 id hid).backed⟩
  · exact ⟨classId, doc, hid.2 find hfind, g₃.shows hdoc.2 find hfind⟩

/-- The name that is meant is that of the class and that of the member together. -/
theorem referencedClass_runs (hs : p.Hosts s) {classId : Id .classes} {className : String}
    (hclass : d.catalog.ClassNamed className classId) (reference : String) :
    Runs p [] d (referencedClass s classId className reference) fun found d' =>
      d.catalog.Told → ∃ owner, d'.catalog.ClassNamed owner found.1 ∧
        owner ++ "." ++ found.2 = memberReference className reference := by
  unfold referencedClass
  split
  · next name hname =>
    refine Runs.pure fun _ => ⟨className, hclass, ?_⟩
    have hdot : "." ++ String.ofList name = reference := by
      apply String.toList_injective
      simp [hname]
    simp [memberReference, hname, String.append_assoc, hdot]
  · next hdot =>
    split
    · exact Runs.fail fun h => h
    · next target name hsplit =>
      refine Runs.bind (resolveClass_runs hs target) fun id d₁ _ hid => ?_
      refine Runs.pure fun ht => ⟨target, hid.2.2 ht, ?_⟩
      rw [join_of_splitLast? hsplit]
      unfold memberReference
      split
      · next rest hrest => exact absurd hrest (hdot rest)
      · rfl

theorem get?_of_view? {c : Catalog} {t : Table} {id : Id t} {v : View t} (h : c.view? id = some v) :
    c.get? id = some v.record := by
  obtain ⟨r, hr, rfl⟩ := Option.map_eq_some_iff.mp h
  exact hr

theorem view?_of_get? {c : Catalog} {t : Table} {id : Id t} {r : Record t}
    (h : c.get? id = some r) : c.view? id = some ⟨id, r⟩ := by
  rw [Catalog.view?, h, Option.map_some]

/-- The function that is found is listed, and has the name that is looked for. -/
theorem function?_eq_some {c : Catalog} {r : ClassRecord} {name : String} {kind : FunctionKind}
    {v : View .functions} (h : c.function? r name kind = some v) :
    v.id ∈ r.functions ∧ c.get? v.id = some v.record ∧ v.record.name = name := by
  have hmem := List.mem_of_mem_filter (List.mem_of_find?_eq_some h)
  obtain ⟨id, hid, hv⟩ := List.mem_filterMap.mp hmem
  obtain ⟨r, hr, rfl⟩ := Option.map_eq_some_iff.mp hv
  exact ⟨hid, hr, by simpa using List.find?_some h⟩

theorem resolveMember_runs (hs : p.Hosts s) {classId : Id .classes} {className : String}
    (hclass : d.catalog.ClassNamed className classId) (reference : String) :
    Runs p [] d (resolveMember s classId reference) fun ids d' =>
      ∃ owner member, d'.catalog.get? ids.1 = some owner ∧ d'.catalog.get? ids.2 = some member ∧
        ids.2 ∈ owner.functions ∧
        (d.catalog.Told →
          owner.fullName ++ "." ++ member.name = memberReference className reference) := by
  unfold resolveMember
  obtain ⟨own, hown, hname⟩ := hclass
  refine Runs.bind (fetch_runs (Catalog.live_of_get? hown)) fun r d₁ g₁ hr => ?_
  cases hown.symm.trans hr
  rw [hname]
  have hown₁ := g₁.kept _ _ hown List.not_mem_nil
  refine Runs.bind (referencedClass_runs hs ⟨own, hown₁, hname⟩ reference)
    fun found d₂ _ hfound => ?_
  refine Runs.bind catalog_runs fun c d₃ _ hc => ?_
  obtain ⟨rfl, rfl⟩ := hc
  dsimp only
  split
  · next mine declaring _ hdeclaring =>
    refine Runs.guarded (fun h => h) fun _ => ?_
    cases hf : d₃.catalog.function? declaring.record found.2 .unresolved with
    | none => exact Runs.fail fun h => h
    | some function =>
      have hget := get?_of_view? hdeclaring
      obtain ⟨hlisted, hfunction, hmember⟩ := function?_eq_some hf
      refine Runs.pure ⟨declaring.record, function.record, hget, hfunction, hlisted, fun ht => ?_⟩
      obtain ⟨owner, ⟨r, hr, rfl⟩, href⟩ := hfound (g₁.told ht)
      cases hget.symm.trans hr
      rw [hmember, href]
  · exact Runs.fail fun h => h

theorem memberName_runs {classId : Id .classes} {function : Id .functions} {owner : ClassRecord}
    {member : FunctionRecord} (hc : d.catalog.get? classId = some owner)
    (hf : d.catalog.get? function = some member) :
    Runs p [] d (memberName classId function)
      fun name _ => name = owner.fullName ++ "." ++ member.name := by
  unfold memberName
  refine Runs.bind (fetch_runs (Catalog.live_of_get? hc)) fun r d₁ g₁ hr => ?_
  cases hc.symm.trans hr
  have hf₁ := g₁.kept _ _ hf List.not_mem_nil
  refine Runs.bind (fetch_runs (Catalog.live_of_get? hf₁)) fun r d₂ _ hr => ?_
  cases hf₁.symm.trans hr
  exact Runs.pure rfl

/-- A function that a class lists goes by the name of that class and its own one. -/
theorem Draft.Matched.bears (h : d.Matched) {classId : Id .classes} {function : Id .functions}
    {owner : ClassRecord} {member : FunctionRecord} (hc : d.catalog.get? classId = some owner)
    (hf : d.catalog.get? function = some member) (hlisted : function ∈ owner.functions) :
    d.catalog.Bears classId (owner.fullName ++ "." ++ member.name) member ∧ member.IsUsable :=
  ⟨Catalog.ClassNamed.bears ⟨owner, hc, rfl⟩
    (h.catalog.fits classId owner hc function hlisted member hf) rfl,
    h.catalog.fits function member hf⟩

/-- An explicit implement covers the accessors that it asks for if the property has them. If it
covers only one, then the flags are that one's. -/
theorem fits_explicit {i : ImplementRecord} {f : FunctionRecord} {source : ImplementSource}
    {flags : ImplementFlags} (hu : f.IsUsable)
    (hcovers : ¬ ((coveredAccessors f source).1 && !f.isReadable ||
      (coveredAccessors f source).2 && !f.isWritable) = true)
    (hg : i.coversGetter = (coveredAccessors f source).1)
    (hs : i.coversSetter = (coveredAccessors f source).2)
    (hgetter : i.getter = if i.coversSetter && !i.coversGetter then {} else flags)
    (hsetter : i.setter = if i.coversSetter then flags else {}) : i.Fits f := by
  by_cases hm : f.kind = .method
  · have hnone : coveredAccessors f source = (false, false) := if_pos hm
    exact ImplementRecord.fits_method hm (by rw [hg, hnone]) (by rw [hs, hnone])
  rw [← hg, ← hs] at hcovers
  obtain ⟨hreadable, hwritable⟩ : (i.coversGetter → f.isReadable) ∧
      (i.coversSetter → f.isWritable) := by
    simpa using hcovers
  have hcovered (hp : f.isProperty) : i.coversGetter ∨ i.coversSetter := by
    rw [hg, hs, coveredAccessors, if_neg hm]
    split
    · exact hu hp
    · next hasked => simpa [or_iff_not_imp_left] using hasked
  refine ⟨fun h => absurd h hm, hcovered, fun _ => hreadable, fun _ => hwritable, fun hp h => ?_,
    fun _ h => ?_⟩
  · have hgone : i.coversGetter = false := h
    have hother : i.coversSetter = true := (hcovered hp).resolve_left (by simp [hgone])
    change i.getter = {}
    simp [hgetter, hgone, hother]
  · have hgone : i.coversSetter = false := h
    change i.setter = {}
    simp [hsetter, hgone]

theorem storeImplement_runs (hs : p.Hosts s) {classId : Id .classes} (own : d.Owns classId)
    {className : String} (hclass : d.catalog.ClassNamed className classId)
    (source : ImplementSource) :
    Runs p [] d (storeImplement s classId source) fun id d' => d'.Owns id ∧
      d'.Shows fun find => d.catalog.Told → source.StoredAt find classId className id := by
  unfold storeImplement
  refine Runs.bind (resolveMember_runs hs hclass source.name) fun ids d₁ g₁ hids => ?_
  obtain ⟨owner, member, howner, hmember, hlisted, hname⟩ := hids
  refine Runs.bind (fetch_runs (Catalog.live_of_get? hmember)) fun record d₂ g₂ hrecord => ?_
  cases hmember.symm.trans hrecord
  have howner₂ := g₂.kept _ _ howner List.not_mem_nil
  have hmember₂ := g₂.kept _ _ hmember List.not_mem_nil
  dsimp only
  split
  · refine Runs.bind (fetch_runs (Catalog.live_of_get? howner₂)) fun r d₃ _ _ => ?_
    exact Runs.bind_same (Q := fun _ _ => False) (Runs.fail fun h => h) (fun _ _ _ h => h.elim)
  · next hcovers =>
    refine Runs.bind (memberName_runs howner₂ hmember₂) fun fullName d₃ g₃ hfullName => ?_
    cases hfullName
    refine Runs.bind (documentation_runs _) fun doc d₄ g₄ hdoc => ?_
    refine Runs.bind (documentation_runs _) fun getterDoc d₅ g₅ hgetterDoc => ?_
    refine Runs.bind (documentation_runs _) fun setterDoc d₆ g₆ hsetterDoc => ?_
    have g := (((g₂.trans g₃).trans g₄).trans g₅).trans g₆
    refine Runs.weaken (insertPart_runs ?_ trivial fun hm f hf => ?_) fun id d₇ g₇ hid =>
      ⟨hid.1, fun find hfind ht => ?_⟩
    · refine allBacked_implement
        (g.backed_of_live Table.classes_isShared (Catalog.live_of_get? howner))
        ((g₁.trans g).owns own)
          (g.backed_of_live Table.functions_isShared (Catalog.live_of_get? hmember)) ?_
      simpa using ⟨fun i hi => (g₅.trans g₆).owns (hdoc.1 i hi), fun i hi =>
        g₆.owns (hgetterDoc.1 i hi), hsetterDoc.1⟩
    · have hmember₆ := g.kept _ _ hmember List.not_mem_nil
      cases hmember₆.symm.trans hf
      obtain ⟨hbears, husable⟩ := hm.bears (g.kept _ _ howner List.not_mem_nil) hmember₆ hlisted
      exact ⟨hbears, fits_explicit husable hcovers rfl rfl rfl rfl⟩
    · have hget := hid.2 find hfind
      rw [hname ht] at hget
      exact ⟨_, _, _, _, doc, getterDoc, setterDoc, hget,
        ((g₅.trans g₆).trans g₇).shows hdoc.2 find hfind,
        (g₆.trans g₇).shows hgetterDoc.2 find hfind, g₇.shows hsetterDoc.2 find hfind⟩

theorem storeConstructor_runs (hs : p.Hosts s) {classId : Id .classes} {className : String}
    (hclass : d.catalog.ClassNamed className classId) (source : ConstructorSource) :
    Runs p [] d (storeConstructor s classId source) fun id d' => d'.Owns id ∧
      d'.Shows fun find => d.catalog.Told → source.StoredAt find className id := by
  unfold storeConstructor
  refine Runs.bind (resolveMember_runs hs hclass source.name) fun ids d₁ g₁ hids => ?_
  obtain ⟨owner, member, howner, hmember, hlisted, hname⟩ := hids
  refine Runs.bind (memberName_runs howner hmember) fun fullName d₂ g₂ hfullName => ?_
  cases hfullName
  have howner₂ := g₂.kept _ _ howner List.not_mem_nil
  have hmember₂ := g₂.kept _ _ hmember List.not_mem_nil
  refine Runs.weaken (insertPart_runs ?_ trivial fun hm f hf => ?_) fun id d₃ g₃ hid =>
    ⟨hid.1, fun find hfind ht => ?_⟩
  · simp only [AllBacked, references, List.forall_mem_cons]
    exact ⟨.inr ⟨Table.classes_isShared, Catalog.live_of_get? howner₂⟩,
      .inr ⟨Table.functions_isShared, Catalog.live_of_get? hmember₂⟩, by simp⟩
  · cases hmember₂.symm.trans hf
    exact (hm.bears howner₂ hmember₂ hlisted).1
  · have hget := hid.2 find hfind
    rw [hname ht] at hget
    exact ⟨_, _, hget⟩

end InterfaceCatalog
