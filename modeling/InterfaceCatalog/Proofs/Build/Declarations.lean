import InterfaceCatalog.Proofs.Build.Names

namespace InterfaceCatalog

open Building

variable {p : Place} {s : Site} {d : Draft}

theorem checkAvailable_runs (name : String) :
    Runs p [] d (checkAvailable name) fun _ d' => d' = d := by
  unfold checkAvailable
  refine Runs.bind registry_runs fun r d₁ _ h₁ => ?_
  obtain ⟨rfl, rfl⟩ := h₁
  cases d₁.catalog.registry.declarations.find? name with
  | some e => exact Runs.fail fun h => h
  | none => exact Runs.pure rfl

/-- `enter` puts a name under a heading of the file, and the name can be declared then. -/
def Enters (p : Place) (s : Site) (h : Heading) {t : Table} (target : Id t → DeclarationTarget)
    (enter : String → Id t → Building Unit) : Prop :=
  ∀ {d : Draft} {kind : DeclarationKind} {name : String} {id : Id t},
    h.declarationKind? = some kind →
    d.Owns id → d.catalog.label? id = some ⟨name, p.file, .listed h⟩ → d.catalog.Unlisted id →
    Runs p (declaring h name) d (enter name id >>= fun _ =>
      Building.declare s name kind (target id))
      fun _ d' => d'.catalog.DeclaresAs (p.owner d') h name (target id) ∧
        registrations d'.journal = registrations d.journal ++ declaring h name

theorem enters_register (hs : p.Hosts s) (h : Heading) {target : Id h.table → DeclarationTarget}
    (ht : ∀ id, h.target? id = some (target id)) : Enters p s h target (register s h) :=
  fun hk own hlabel hnew => declare_runs hs hk (ht _) own hlabel hnew

theorem Draft.Grows.declaresAs {d d' : Draft} {rewritten : List Change} (g : d.Grows rewritten d')
    {h : Heading} {name : String} {target : DeclarationTarget}
    (hd : d.catalog.DeclaresAs (p.owner d) h name target) :
    d'.catalog.DeclaresAs (p.owner d') h name target := by
  obtain ⟨id, kind, id', hkind, htarget, he, he'⟩ := hd
  exact ⟨id, kind, id', hkind, htarget, g.entered he, g.entered he'⟩

/-- A build has declared a name, with a record of its own. -/
structure Place.Has (p : Place) (d : Draft) (h : Heading) (name : String)
    (target : DeclarationTarget) {t : Table} (id : Id t) (r : Record t) : Prop where
  own : d.Owns id
  record : d.catalog.get? id = some r
  declares : d.catalog.DeclaresAs (p.owner d) h name target

theorem Draft.Grows.has {d d' : Draft} {rewritten : List Change} (g : d.Grows rewritten d')
    {h : Heading} {name : String} {target : DeclarationTarget} {t : Table} {id : Id t}
    {r : Record t} (hh : p.Has d h name target id r) (hn : Change.inserted t id ∉ rewritten) :
    p.Has d' h name target id r :=
  ⟨g.owns hh.own, g.kept id r hh.record hn, g.declaresAs hh.declares⟩

theorem declareTypedecl_runs (hs : p.Hosts s) {h : Heading}
    {enter : String → Id .typedecls → Building Unit} (he : Enters p s h .typedeclTarget enter)
    {kind : TypedeclKind} (hkind : kind.heading? = some h) {declared : DeclarationKind}
    (hdeclared : h.declarationKind? = some declared) (name : String) :
    Runs p (declaring h name) d (declareTypedecl s enter kind declared name) fun id d' =>
      p.Has d' h name (.typedeclTarget id) id { fullName := name, file := p.file, kind } ∧
      ¬ d.catalog.Live id ∧
      registrations d'.journal = registrations d.journal ++ declaring h name := by
  unfold declareTypedecl
  refine Runs.bind (checkAvailable_runs name) fun _ d₁ _ h₁ => ?_
  subst h₁
  refine Runs.sound fun hsound => Runs.bind (insert_runs ?_ fun _ => trivial) fun id d₂ g₂ hid => ?_
  · simp [AllBacked, references, Reference.ofOption, Reference.ofList]
  obtain ⟨own, hget, rfl, hnew⟩ := hid
  rw [hs.file_eq] at hget
  have hlabel : d₂.catalog.label? (d₁.catalog.next .typedecls) =
      some ⟨name, p.file, .listed h⟩ := by
    rw [Catalog.label?, hget]
    simp [label, hkind]
  rw [← bind_assoc]
  refine Runs.bind_same (he hdeclared own hlabel hnew) fun _ d₃ g₃ h₃ => ?_
  refine Runs.pure ⟨⟨g₃.owns own, g₃.kept _ _ hget (by simp [declaring]), h₃.1⟩, ?_, ?_⟩
  · simp [Catalog.Live, Catalog.get?_next (Accounted.wellFormed hsound : d₁.catalog.WellFormed)]
  · rw [h₃.2, g₂.unnamed (by simp)]

theorem storeStructField_runs (hs : p.Hosts s) (source : StructFieldSource) :
    Runs p [] d (storeStructField s source)
      fun id d' => d'.Owns id ∧ d'.Shows fun find => source.StoredAt find id := by
  unfold storeStructField
  refine Runs.bind (resolveType_runs hs source.type) fun type d₁ _ htype => ?_
  refine Runs.bind (documentation_runs source.documentation) fun doc d₂ g₂ hdoc => ?_
  refine Runs.weaken (insertPart_runs ?_ trivial fun _ => trivial) fun id d₃ g₃ hid =>
    ⟨hid.1, fun find hfind => ?_⟩
  · simp only [AllBacked, references, List.forall_mem_cons, Reference.forall_ofOption]
    exact ⟨g₂.backed htype.1, fun id hid => (hdoc.1 id hid).backed⟩
  · exact ⟨type, doc, hid.2 find hfind, g₃.shows (g₂.shows htype.2) find hfind,
      g₃.shows hdoc.2 find hfind⟩

/-- A record that is filled says what its parts show. -/
def Draft.Fills (d : Draft) {t : Table} (id : Id t) (P : Lookup → Record t → Prop) : Prop :=
  ∃ r, d.catalog.get? id = some r ∧ d.Shows fun find => P find r

theorem Draft.Grows.fills {d d' : Draft} {rewritten : List Change}
    (g : d.Grows rewritten d') {t : Table} {id : Id t} {P : Lookup → Record t → Prop}
    (h : d.Fills id P) (hn : Change.inserted t id ∉ rewritten)
    (hopen : ∀ {u : Table} (other : Id u) (r : Record u), Change.inserted u other ∈ rewritten →
      ¬ IsFinal u r) : d'.Fills id P := by
  obtain ⟨r, hr, hshows⟩ := h
  exact ⟨r, g.kept id r hr hn, g.shows_of (fun other r hid _ => hopen other r hid) hshows⟩

/-- The last step of filling a type whose parts are stored. A type is no part itself. -/
theorem fillType_runs {id : Id .typedecls} {f : TypedeclRecord → TypedeclRecord}
    {r : TypedeclRecord} {P : Lookup → TypedeclRecord → Prop} (own : d.Owns id)
    (hr : d.catalog.get? id = some r) (hf : ∀ r, label .typedecls (f r) = label .typedecls r)
    (hb : ∀ r, NewlyBacked (t := .typedecls) d.catalog d.journal r (f r))
    (hshows : d.Shows fun find => P find (f r)) :
    Runs p [.inserted .typedecls id] d (modify (t := .typedecls) id f)
    fun _ d' => d'.Fills id P := by
  refine (modify_runs own (fun r _ => hb r) hf (fun _ => trivial) fun _ _ _ => trivial).imp
    fun _ d' g h => ?_
  obtain ⟨r', hr', hget⟩ := h
  cases hr.symm.trans hr'
  refine ⟨f r, hget, g.shows_of (fun other r hid _ => ?_) hshows⟩
  cases List.mem_singleton.mp hid
  exact fun h => h

/-- What a declared type refers to once it is filled: what it referred to before, and new
parts of its own. -/
theorem newlyBacked_typedecl {r r' : TypedeclRecord}
    (hdoc : ∀ id ∈ r'.documentation, d.Owns id)
    (hstruct : r'.structFields = r.structFields ∨ ∀ id ∈ r'.structFields, d.Owns id)
    (henum : r'.enumFields = r.enumFields ∨ ∀ id ∈ r'.enumFields, d.Owns id)
    (hbase : r'.base = r.base ∨ ∀ id ∈ r'.base, d.Owns id)
    (hfunction : r'.function = r.function ∨ ∀ id ∈ r'.function, d.Owns id) :
    NewlyBacked (t := .typedecls) d.catalog d.journal r r' := by
  have owned : ∀ {t : Table} {id : Id t}, d.Owns id → Backed d.catalog d.journal id :=
    fun h => h.backed
  simp only [NewlyBacked, references, List.forall_mem_append, Reference.forall_ofOption,
    Reference.forall_ofList]
  refine ⟨⟨⟨⟨fun id hid => .inr (hdoc id hid).backed, ?_⟩, ?_⟩, ?_⟩, ?_⟩
  · exact newly_of_eq_or (fun id h => by simp [Reference.ofList, h]) owned hstruct
  · exact newly_of_eq_or (fun id h => by simp [Reference.ofList, h]) owned henum
  · exact newly_of_eq_or (fun id h => by simp [Reference.ofOption, Option.mem_def.mp h]) owned hbase
  · exact newly_of_eq_or (fun id h => by simp [Reference.ofOption, Option.mem_def.mp h])
      owned hfunction

theorem fillStruct_runs (hs : p.Hosts s) {id : Id .typedecls} (source : StructSource)
    (own : d.Owns id)
    (hr : d.catalog.get? id = some {
      fullName := source.name, file := p.file
      kind := if source.isOpaque then .opaqueStruct else .struct }) :
    Runs p [.inserted .typedecls id] d (fillStruct s id source)
      fun _ d' => d'.Fills id fun find r => source.StoredAs find p.file r := by
  unfold fillStruct
  refine Runs.guarded (fun h => h) fun _ => ?_
  refine Runs.bind (distinctly_stored_runs (lasting_owns _) fun a _ _ _ =>
    storeStructField_runs hs a)
    fun fields d₁ g₁ hfields => ?_
  refine Runs.bind (documentation_runs source.documentation) fun doc d₂ g₂ hdoc => ?_
  have g := g₁.trans g₂
  refine fillType_runs (g.owns own) (g.kept id _ hr List.not_mem_nil) (fun _ => rfl) (fun r => ?_)
    fun find hfind => ⟨doc, fields, rfl, hdoc.2 find hfind, g₂.shows hfields.2.1 find hfind⟩
  exact newlyBacked_typedecl hdoc.1 (.inr fun id hid => g₂.owns (hfields.1 id hid))
    (.inl rfl) (.inl rfl)
    (.inl rfl)

theorem implicitValue_runs {anchor : Option (Id .expressions)} (distance : Nat)
    (ha : ∀ id ∈ anchor, d.Owns id) :
    Runs p [] d (implicitValue anchor distance)
      fun id d' => d'.Owns id ∧ d'.Shows fun find => CountedAt find anchor distance id := by
  unfold implicitValue
  refine Runs.bind (insertPart_runs (by simp [AllBacked, references]) trivial fun _ => trivial)
    fun offset d₁ g₁ hoffset => ?_
  cases anchor with
  | none => exact Runs.pure ⟨hoffset.1, fun find hfind => ⟨offset, hoffset.2 find hfind, rfl⟩⟩
  | some a =>
    refine Runs.weaken (insertPart_runs ?_ trivial fun _ => trivial) fun id d₂ g₂ hid =>
      ⟨hid.1, fun find hfind => ?_⟩
    · simpa [AllBacked, references] using ⟨g₁.backed (ha a rfl), hoffset.1.backed⟩
    · exact ⟨offset, g₂.shows hoffset.2 find hfind, hid.2 find hfind⟩

theorem enumFieldValue_runs {anchor : Option (Id .expressions)} (distance : Nat)
    (ha : ∀ id ∈ anchor, d.Owns id) (value : Option String) :
    Runs p [] d (enumFieldValue s anchor distance value) fun id d' => d'.Owns id ∧
      d'.Shows fun find => (∀ text ∈ value, ExpressionStoredAt find text id) ∧
        (value = none → CountedAt find anchor distance id) := by
  cases value with
  | some text =>
    exact (storeExpression_runs text).imp fun id d' _ h => ⟨h.1, fun find hfind => by
      simpa using h.2 find hfind⟩
  | none =>
    exact (implicitValue_runs distance ha).imp fun id d' _ h => ⟨h.1, fun find hfind => by
      simpa using h.2 find hfind⟩

theorem storeEnumFields_runs (owner : EnumSource) {typedecl : Id .typedecls}
    (fields : List EnumFieldSource) {seen : List String} {anchor : Option (Id .expressions)}
    {distance : Nat} {d : Draft} (own : d.Owns typedecl) (ha : ∀ id ∈ anchor, d.Owns id) :
    Runs p [] d (storeEnumFields s owner typedecl seen anchor distance fields) fun ids d' =>
      (∀ id ∈ ids, d'.Owns id) ∧
      d'.Shows fun find => List.Forall₂ (EnumFieldSource.StoredAt find typedecl) fields ids ∧
        ∃ records, List.Forall₂ (fun id r => find .enumFields id = some r) ids records ∧
          CountsFrom find anchor distance records := by
  induction fields generalizing seen anchor distance d with
  | nil => exact Runs.pure ⟨by simp, fun _ _ => ⟨.nil, [], .nil, trivial⟩⟩
  | cons field fields ih =>
    unfold storeEnumFields
    refine Runs.guarded (fun h => h) fun _ => ?_
    refine Runs.bind (enumFieldValue_runs distance ha field.value) fun value d₁ g₁ hv => ?_
    refine Runs.bind (documentation_runs field.documentation) fun doc d₂ g₂ hdoc => ?_
    refine Runs.bind (insertPart_runs ?_ trivial fun _ => trivial) fun id d₃ g₃ hid => ?_
    · simp only [AllBacked, references, List.forall_mem_cons, Reference.forall_ofOption]
      exact ⟨(g₁.trans g₂).backed own, g₂.backed hv.1, fun id hid => (hdoc.1 id hid).backed⟩
    have hown := ((g₁.trans g₂).trans g₃).owns own
    have hlast : ∀ i ∈ (if field.value.isSome then (some value, 1) else (anchor, distance + 1)).1,
        d₃.Owns i := by
      split
      · simpa using (g₂.trans g₃).owns hv.1
      · exact fun i hi => ((g₁.trans g₂).trans g₃).owns (ha i hi)
    refine Runs.bind (ih hown hlast) fun ids d₄ g₄ hids => ?_
    refine Runs.pure ⟨by simpa using ⟨g₄.owns hid.1, hids.1⟩, fun find hfind => ?_⟩
    have g := g₃.trans g₄
    have hrecord := g₄.shows hid.2 find hfind
    obtain ⟨htext, hcounted⟩ := (g₂.trans g).shows hv.2 find hfind
    obtain ⟨hstored, records, hrecords, hcounts⟩ := hids.2 find hfind
    refine ⟨.cons ⟨value, doc, hrecord, htext, g.shows hdoc.2 find hfind⟩ hstored,
      _, .cons hrecord hrecords, ?_⟩
    have hnext :
      CountsFrom find (if field.value.isSome then (some value, 1) else (anchor, distance + 1)).1
        (if field.value.isSome then (some value, 1) else (anchor, distance + 1)).2 records :=
          hcounts
    unfold CountsFrom
    cases hvalue : field.value with
    | some text => simpa [hvalue] using hnext
    | none => simpa [hvalue] using And.intro (hcounted hvalue) (by simpa [hvalue] using hnext)

theorem fillEnum_runs {id : Id .typedecls} (source : EnumSource) (own : d.Owns id)
    (hr : d.catalog.get? id = some { fullName := source.name, file := p.file, kind := .enum }) :
    Runs p [.inserted .typedecls id] d (fillEnum s id source)
      fun _ d' => d'.Fills id fun find r => source.StoredAs find p.file id r ∧ r.Counts find := by
  unfold fillEnum
  refine Runs.bind (storeEnumFields_runs source source.fields own (by simp))
    fun fields d₁ g₁ hfields => ?_
  refine Runs.bind (documentation_runs source.documentation) fun doc d₂ g₂ hdoc => ?_
  have g := g₁.trans g₂
  refine fillType_runs (g.owns own) (g.kept id _ hr List.not_mem_nil) (fun _ => rfl) (fun r => ?_)
    fun find hfind => ?_
  · exact newlyBacked_typedecl hdoc.1 (.inl rfl) (.inr fun id hid => g₂.owns (hfields.1 id hid))
      (.inl rfl)
      (.inl rfl)
  · obtain ⟨hstored, hcounts⟩ := g₂.shows hfields.2 find hfind
    exact ⟨⟨doc, fields, rfl, hdoc.2 find hfind, hstored⟩, hcounts⟩

theorem fillAlias_runs (hs : p.Hosts s) {id : Id .typedecls} (source : AliasSource)
    (own : d.Owns id)
    (hr : d.catalog.get? id = some { fullName := source.name, file := p.file, kind := .alias }) :
    Runs p [.inserted .typedecls id] d (fillAlias s id source)
      fun _ d' => d'.Fills id fun find r => source.StoredAs find p.file r := by
  unfold fillAlias
  refine Runs.bind (resolveType_runs hs source.type) fun base d₁ g₁ hbase => ?_
  refine Runs.bind (documentation_runs source.documentation) fun doc d₂ g₂ hdoc => ?_
  have g := g₁.trans g₂
  refine fillType_runs (g.owns own) (g.kept id _ hr List.not_mem_nil) (fun _ => rfl) (fun r => ?_)
    fun find hfind => ⟨doc, base, rfl, hdoc.2 find hfind, g₂.shows hbase.2 find hfind⟩
  exact newlyBacked_typedecl hdoc.1 (.inl rfl) (.inl rfl) (.inr (by simpa using g₂.owns hbase.1))
    (.inl rfl)

theorem storeParameter_runs (hs : p.Hosts s) (source : ParameterSource) :
    Runs p [] d (storeParameter s source)
      fun id d' => d'.Owns id ∧ d'.Shows fun find => source.StoredAt find id := by
  unfold storeParameter
  refine Runs.bind (resolveType_runs hs source.type) fun type d₁ _ htype => ?_
  refine Runs.bind (optional_expression_runs source.default) fun default d₂ g₂ hdefault => ?_
  refine Runs.bind (documentation_runs source.documentation) fun doc d₃ g₃ hdoc => ?_
  refine Runs.weaken (insertPart_runs ?_ trivial fun _ => trivial) fun id d₄ g₄ hid =>
    ⟨hid.1, fun find hfind => ?_⟩
  · simp only [AllBacked, references, List.forall_mem_cons, List.forall_mem_append,
      Reference.forall_ofOption]
    exact ⟨(g₂.trans g₃).backed htype.1, fun id hid => g₃.backed (hdefault.1 id hid),
      fun id hid => (hdoc.1 id hid).backed⟩
  · have g := g₃.trans g₄
    exact ⟨type, default, doc, hid.2 find hfind, (g₂.trans g).shows htype.2 find hfind,
      g.shows hdefault.2 find hfind, g₄.shows hdoc.2 find hfind⟩

theorem storeParameters_runs (hs : p.Hosts s) (owner : String) (sources : List ParameterSource) :
    Runs p [] d (storeParameters s owner sources) fun ids d' => (∀ id ∈ ids, d'.Owns id) ∧
      d'.Shows fun find => List.Forall₂ (ParameterSource.StoredAt find) sources ids :=
  (distinctly_stored_runs (lasting_owns _) fun a _ _ _ => storeParameter_runs hs a).imp
    fun _ _ _ h => ⟨h.1, h.2.1⟩

/-- All that a part of a record refers to belongs to the build. -/
def Draft.OwnsAll (d : Draft) (refs : List Reference) : Prop :=
  ∀ ref ∈ refs, d.Owns ref.id

theorem Draft.Grows.ownsAll {d d' : Draft} {rewritten : List Change} (h : d.Grows rewritten d')
    {refs : List Reference} (hr : d.OwnsAll refs) : d'.OwnsAll refs :=
  fun ref href => h.owns (hr ref href)

theorem storeReturn_runs (hs : p.Hosts s) (source : Option ReturnSource) :
    Runs p [] d (storeReturn s source) fun r d' => d'.OwnsAll r.references ∧
      d'.Shows fun find => ReturnSource.StoredAs find source r := by
  unfold storeReturn
  cases source with
  | none =>
    exact Runs.pure ⟨by simp [Draft.OwnsAll, ReturnRecord.references, Reference.ofOption],
      fun _ _ => rfl⟩
  | some source =>
    refine Runs.bind (resolveType_runs hs source.type) fun type d₁ _ htype => ?_
    refine Runs.bind (optional_expression_runs source.default) fun default d₂ g₂ hdefault => ?_
    refine Runs.bind (documentation_runs source.documentation) fun doc d₃ g₃ hdoc => ?_
    refine Runs.pure ⟨?_, fun find hfind => ⟨type, default, doc, rfl, ?_⟩⟩
    · simp only [Draft.OwnsAll, ReturnRecord.references, List.forall_mem_append,
        Reference.forall_ofOption]
      exact ⟨⟨by simpa using (g₂.trans g₃).owns htype.1, fun id hid => g₃.owns (hdefault.1 id hid)⟩,
        hdoc.1⟩
    · exact ⟨(g₂.trans g₃).shows htype.2 find hfind, g₃.shows hdefault.2 find hfind,
        hdoc.2 find hfind⟩

theorem fillFunctionPointer_runs (hs : p.Hosts s) {id : Id .typedecls}
    (source : FunctionPointerSource) (own : d.Owns id)
    (hr : d.catalog.get? id =
      some { fullName := source.name, file := p.file, kind := .functionPointer }) :
    Runs p [.inserted .typedecls id] d (fillFunctionPointer s id source)
      fun _ d' => d'.Fills id fun find r => source.StoredAs find p.file r := by
  unfold fillFunctionPointer
  refine Runs.bind (storeParameters_runs hs source.name source.parameters) fun ps d₁ g₁ hps => ?_
  refine Runs.bind (storeReturn_runs hs source.result) fun result d₂ g₂ hresult => ?_
  refine Runs.bind (insertPart_runs ?_ (.inl rfl) fun _ =>
    ⟨by simp [FunctionRecord.IsUsable, FunctionRecord.isProperty], by simp⟩)
    fun function d₃ g₃ hfunction => ?_
  · simp only [AllBacked, references, List.forall_mem_append, Reference.forall_ofOption,
      Reference.forall_ofList]
    refine ⟨⟨⟨⟨⟨by simp, fun id hid => (g₂.owns (hps.1 id hid)).backed⟩, ?_⟩, by simp⟩, by simp⟩,
      by simp⟩
    simpa [AccessorRecord.references, Reference.ofList] using
      fun ref href => (hresult.1 ref href).backed
  refine Runs.bind (documentation_runs source.documentation) fun doc d₄ g₄ hdoc => ?_
  have g := g₃.trans g₄
  have gall := (g₁.trans g₂).trans g
  refine fillType_runs (gall.owns own) (gall.kept id _ hr List.not_mem_nil) (fun _ => rfl)
    (fun r => ?_)
    fun find hfind => ⟨doc, function, ps, result, rfl, g₄.shows hfunction.2 find hfind,
      hdoc.2 find hfind, (g₂.trans g).shows hps.2 find hfind, g.shows hresult.2 find hfind⟩
  exact newlyBacked_typedecl hdoc.1 (.inl rfl) (.inl rfl) (.inl rfl)
    (.inr (by simpa using g₄.owns hfunction.1))

theorem declareVariable_runs (hs : p.Hosts s) {h : Heading}
    {enter : String → Id .variables → Building Unit} (he : Enters p s h .variableTarget enter)
    {kind : VariableKind} (hkind : kind.heading? = some h)
    (hdeclared : h.declarationKind? = some .variableName) (source : VariableSource) :
    Runs p (declaring h source.name) d (declareVariable s enter kind source) fun _ d' =>
      (∃ id r, p.Has d' h source.name (.variableTarget id) id r ∧
        d'.Shows fun find => source.StoredAt find p.file kind id) ∧
      registrations d'.journal = registrations d.journal ++ declaring h source.name := by
  unfold declareVariable
  refine Runs.bind (checkAvailable_runs source.name) fun _ d₁ g₁ _ => ?_
  refine Runs.bind (resolveType_runs hs source.type) fun type d₂ g₂ htype => ?_
  refine Runs.bind (optional_expression_runs source.value) fun value d₃ g₃ hvalue => ?_
  refine Runs.bind (documentation_runs source.documentation) fun doc d₄ g₄ hdoc => ?_
  refine Runs.bind (insert_runs ?_ fun _ => trivial) fun id d₅ g₅ hid => ?_
  · simp only [AllBacked, references, List.forall_mem_cons, List.forall_mem_append,
      Reference.forall_ofOption]
    exact ⟨(g₃.trans g₄).backed htype.1, fun id hid => g₄.backed (hvalue.1 id hid),
      fun id hid => (hdoc.1 id hid).backed⟩
  obtain ⟨own, hget, -, hnew⟩ := hid
  rw [hs.file_eq] at hget
  have hlabel : d₅.catalog.label? id = some ⟨source.name, p.file, .listed h⟩ := by
    rw [Catalog.label?, hget]
    simp [label, hkind]
  have hstored : d₅.Shows fun find => source.StoredAt find p.file kind id := fun find hfind =>
    ⟨type, value, doc, Draft.shows_record own hget trivial find hfind,
      ((g₃.trans g₄).trans g₅).shows htype.2 find hfind, (g₄.trans g₅).shows hvalue.2 find hfind,
      g₅.shows hdoc.2 find hfind⟩
  refine (he hdeclared own hlabel hnew).imp fun _ d₆ g₆ h₆ => ?_
  have hhas := g₆.kept _ _ hget (by simp [declaring])
  refine ⟨⟨id, _, ⟨g₆.owns own, hhas, h₆.1⟩, ?_⟩, ?_⟩
  · exact g₆.shows_of (fun other r hmem => by simp [declaring] at hmem) hstored
  · rw [h₆.2, ((((g₁.trans g₂).trans g₃).trans g₄).trans g₅).unnamed (by simp)]

end InterfaceCatalog
