import InterfaceCatalog.Proofs.Build.Rows

namespace InterfaceCatalog

open Building

variable {p : Place} {s : Site} {d : Draft}

theorem importFile_runs (hs : p.Hosts s) (name : String) :
    Runs p [] d (importFile s name) fun _ d' => ∃ file, importedFile? s name = some file ∧
      (file ∈ d'.catalog.parsed ∨ file ∈ p.files) := by
  unfold importFile
  cases hf : importedFile? s name with
  | none => exact Runs.fail fun h => h
  | some file => exact (load_runs hs (List.find?_some hf)).weaken fun _ _ _ h => ⟨file, rfl, h⟩

theorem live_of_find? (hs : (p.progress d).Sound p.outer) {h : Heading} {name : String}
    {e : Entry h.table} (he : (d.catalog.registry.index h).find? name = some e) :
    d.catalog.Live e.id :=
  Accounted.live_entry hs (find?_eq_some he).1

def Catalog.ClassNamed (c : Catalog) (name : String) (id : Id .classes) : Prop :=
  ∃ r, c.get? id = some r ∧ r.fullName = name

theorem Draft.Grows.classNamed {d d' : Draft} (g : d.Grows [] d') {className : String}
    {id : Id .classes} (h : d.catalog.ClassNamed className id) :
    d'.catalog.ClassNamed className id := by
  obtain ⟨r, hr, hname⟩ := h
  exact ⟨r, g.kept id r hr List.not_mem_nil, hname⟩

theorem Catalog.Named.classNamed {c : Catalog} (hn : c.Named) {name : String} {e : Entry .classes}
    (he : c.registry.classes.find? name = some e) : c.ClassNamed name e.id := by
  obtain ⟨hmem, hname⟩ := find?_eq_some he
  obtain ⟨role, hl⟩ := hn .classes e hmem
  obtain ⟨r, hr, hlabel⟩ := Option.bind_eq_some_iff.mp hl
  exact ⟨r, hr, (congrArg Label.name (Option.some.inj hlabel)).trans hname⟩

/-- A name that is found is entered for a live class, which carries it. -/
theorem resolveClass_runs (hs : p.Hosts s) (name : String) :
    Runs p [] d (resolveClass s name) fun id d' =>
      d'.catalog.Live id ∧ (∃ e, d'.catalog.registry.classes.find? name = some e ∧ e.id = id) ∧
        (d.catalog.Told → d'.catalog.ClassNamed name id) := by
  unfold resolveClass
  refine Runs.sound fun hsound => Runs.bind registry_runs fun r d₁ _ h₁ => ?_
  obtain ⟨rfl, rfl⟩ := h₁
  cases hn : d₁.catalog.registry.classes.find? name with
  | some e =>
    exact Runs.pure ⟨live_of_find? (h := .classes) hsound hn, ⟨e, hn, rfl⟩, fun ht =>
      ht.named.classNamed hn⟩
  | none =>
    dsimp only
    split
    · next hscanned =>
      refine Runs.bind (load_runs hs hscanned) fun _ d₂ g₂ _ => ?_
      refine Runs.sound fun hsound₂ => Runs.bind registry_runs fun r d₃ _ h₃ => ?_
      obtain ⟨rfl, rfl⟩ := h₃
      cases hn₂ : d₃.catalog.registry.classes.find? name with
      | some e =>
        exact Runs.pure ⟨live_of_find? (h := .classes) hsound₂ hn₂, ⟨e, hn₂, rfl⟩,
          fun ht => (g₂.told ht).named.classNamed hn₂⟩
      | none => exact Runs.fail fun h => h
    · exact Runs.fail fun h => h

theorem resolveTypeClass_runs (hs : p.Hosts s) (name : String) :
    Runs p [] d (resolveTypeClass s name) fun id d' =>
      d'.catalog.Live id ∧ ∃ e, d'.catalog.registry.classes.find? name = some e ∧ e.id = id := by
  intro hsound
  have hrun := (resolveClass_runs hs name).imp (fun _ _ _ h => And.intro h.1 h.2.1) hsound
  unfold resolveTypeClass
  cases hr : resolveClass s name d with
  | ok id d' =>
    rw [hr] at hrun
    exact hrun
  | error e d' =>
    rw [hr] at hrun
    cases e with
    | unresolvedClass n => exact ⟨hrun.1.replace (fun h => h) fun h => h, fun h => h⟩
    | _ => exact hrun

theorem live_of_typedecl? (hs : (p.progress d).Sound p.outer) {name : String} {id : Id .typedecls}
    (h : d.catalog.registry.typedecl? name = some id) : d.catalog.Live id := by
  obtain ⟨e, he, rfl⟩ := Option.map_eq_some_iff.mp h
  rcases Option.or_eq_some_iff.mp he with he | ⟨_, he⟩
  · rcases Option.or_eq_some_iff.mp he with he | ⟨_, he⟩
    · exact live_of_find? (h := .structs) hs he
    · exact live_of_find? (h := .enums) hs he
  · exact live_of_find? (h := .aliases) hs he

/-- What a name means as a type is live, and is one of the things that it stands for. -/
theorem typeMeaning_runs (hs : p.Hosts s) (name : String) :
    Runs p [] d (typeMeaning s name) fun meaning d' =>
      (∀ id ∈ meaning.typedecl, d'.catalog.Live id) ∧ (∀ id ∈ meaning.classId, d'.catalog.Live id) ∧
        meaning ∈ d'.catalog.registry.meanings name := by
  cases hf : fixedMeaning? name with
  | some meaning =>
    rw [typeMeaning_of_fixed hf]
    refine Runs.pure ⟨?_, ?_, Registry.mem_meanings_of_fixed hf⟩
    all_goals obtain rfl | rfl | ⟨builtin, rfl⟩ := fixedMeaning?_eq_some hf <;> simp
  | none =>
    rw [typeMeaning_of_not_fixed hf]
    refine Runs.sound fun hsound => Runs.bind registry_runs fun r d₁ _ h₁ => ?_
    obtain ⟨rfl, rfl⟩ := h₁
    cases ht : d₁.catalog.registry.typedecl? name with
    | some id =>
      exact Runs.pure ⟨by simpa using live_of_typedecl? hsound ht, by simp,
        Registry.mem_meanings_of_typedecl? hf ht⟩
    | none =>
      refine Runs.bind (resolveTypeClass_runs hs name) fun id d₂ _ hid => ?_
      obtain ⟨hlive, e, he, rfl⟩ := hid
      exact Runs.pure ⟨by simp, by simpa using hlive,
        Registry.mem_meanings_of_entry (h := .classes) hf he rfl⟩

mutual

theorem resolveTypeBefore_runs (hs : p.Hosts s) {d : Draft} {next : Option (Id .types)}
    (hnext : ∀ id ∈ next, d.Owns id) :
    ∀ source : TypeSource, Runs p [] d (resolveTypeBefore s next source)
      fun id d' => d'.Owns id ∧ d'.Shows fun find => source.StoredBefore find next id
  | .named name qualifiers freeFunction params => by
    unfold resolveTypeBefore
    refine Runs.bind (typeMeaning_runs hs name) fun meaning d₁ g₁ hm => ?_
    refine Runs.guarded (fun h => h) fun hcount => ?_
    refine Runs.bind (resolveParameters_runs hs params) fun first d₂ g₂ hfirst => ?_
    refine Runs.weaken (insertPart_runs ?_ trivial fun ha => ?_) fun id d₃ g₃ hid =>
      ⟨hid.1, fun find hfind => ?_⟩
    · simp only [AllBacked, references, List.forall_mem_append, Reference.forall_ofOption]
      exact ⟨⟨⟨fun id hid => (hfirst.1 id hid).backed, fun id hid =>
        (g₁.trans g₂).backed (hnext id hid)⟩,
        fun id hid => g₂.backed_of_live Table.typedecls_isShared (hm.1 id hid)⟩,
        fun id hid => g₂.backed_of_live Table.classes_isShared (hm.2.1 id hid)⟩
    · have hmeaning := Registry.meanings_mono (fun _ _ he => g₂.found he) hm.2.2
      exact ⟨hs.file_eq, ha.meanings_eq hmeaning, params, not_not.mp hcount, hfirst.2.own⟩
    · exact ⟨_, hid.2 find hfind, rfl, rfl, rfl, rfl, g₃.shows hfirst.2 find hfind⟩

theorem resolveParameters_runs (hs : p.Hosts s) {d : Draft} :
    ∀ sources : List TypeSource, Runs p [] d (resolveParameters s sources) fun first d' =>
      (∀ id ∈ first, d'.Owns id) ∧ d'.Shows fun find => TypeSource.StoredFrom find sources first
  | [] => Runs.pure ⟨by simp, fun _ _ => rfl⟩
  | param :: params => by
    unfold resolveParameters
    refine Runs.bind (resolveParameters_runs hs params) fun next d₁ _ hnext => ?_
    refine Runs.bind (resolveTypeBefore_runs hs hnext.1 param) fun id d₂ g₂ hid => ?_
    refine Runs.pure ⟨by simpa using hid.1, fun find hfind => ?_⟩
    exact ⟨id, next, rfl, hid.2 find hfind, g₂.shows hnext.2 find hfind⟩

end

theorem resolveType_runs (hs : p.Hosts s) (source : TypeSource) :
    Runs p [] d (resolveType s source)
      fun id d' => d'.Owns id ∧ d'.Shows fun find => source.StoredAt find id :=
  resolveTypeBefore_runs hs (by simp) source

theorem documentation_runs (source : Option DocumentationSource) :
    Runs p [] d (documentation source) fun o d' => (∀ id ∈ o, d'.Owns id) ∧
      d'.Shows fun find => Option.Rel (DocumentationSource.StoredAt find) source o :=
  optional_stored_runs fun _ _ => insertPart_runs (by simp [AllBacked, references]) trivial
    fun _ => trivial

theorem storeTree_runs (tree : Tree) {d : Draft} :
    Runs p [] d (storeTree tree)
      fun id d' => d'.Owns id ∧ d'.Shows fun find => tree.StoredAt find id := by
  induction tree generalizing d with
  | literal l => exact insertPart_runs (by simp [AllBacked, references]) trivial fun _ => trivial
  | unary o t ih =>
    refine Runs.bind ih fun operand d₁ _ ho => ?_
    refine Runs.weaken (insertPart_runs ?_ trivial fun _ => trivial) fun id d₂ g₂ hid =>
      ⟨hid.1, fun find hfind => ?_⟩
    · simpa [AllBacked, references] using ho.1.backed
    · exact ⟨operand, hid.2 find hfind, g₂.shows ho.2 find hfind⟩
  | binary o t u iht ihu =>
    refine Runs.bind iht fun lhs d₁ _ hl => ?_
    refine Runs.bind ihu fun rhs d₂ g₂ hr => ?_
    refine Runs.weaken (insertPart_runs ?_ trivial fun _ => trivial) fun id d₃ g₃ hid =>
      ⟨hid.1, fun find hfind => ?_⟩
    · simpa [AllBacked, references] using ⟨g₂.backed hl.1, hr.1.backed⟩
    · exact ⟨lhs, rhs, hid.2 find hfind, g₃.shows (g₂.shows hl.2) find hfind,
        g₃.shows hr.2 find hfind⟩

theorem storeExpression_runs (text : String) :
    Runs p [] d (storeExpression s text)
      fun id d' => d'.Owns id ∧ d'.Shows fun find => ExpressionStoredAt find text id := by
  unfold storeExpression
  split
  · next tree htree =>
    exact (storeTree_runs tree).imp fun id d' _ h =>
      ⟨h.1, fun find hfind => ⟨tree, htree, h.2 find hfind⟩⟩
  · exact Runs.fail fun h => h

theorem optional_expression_runs (o : Option String) :
    Runs p [] d (Building.optional (storeExpression s) o) fun o' d' => (∀ id ∈ o', d'.Owns id) ∧
      d'.Shows fun find => Option.Rel (ExpressionStoredAt find) o o' :=
  optional_stored_runs fun text _ => storeExpression_runs text

end InterfaceCatalog
