import InterfaceCatalog.Proofs.Build.Classes

namespace InterfaceCatalog

open Building

namespace DeclarationSource

/-- The names that a declaration enters. -/
def changes (x : DeclarationSource) : List Change :=
  declaring x.heading x.name

theorem changes_subset {x : DeclarationSource} {source : FileSource}
    (hx : x ∈ source.declarations) : x.changes ⊆ source.changes := by
  refine FileSource.declaring_subset_changes ?_
  rw [← FileSource.map_declarations]
  exact List.mem_map_of_mem hx

end DeclarationSource

theorem FileSource.changes_eq (source : FileSource) :
    source.changes = source.declarations.flatMap DeclarationSource.changes := by
  rw [changes, ← map_declarations, List.flatMap_map]
  rfl

variable {p : Place} {s : Site} {d : Draft}

theorem checkKind_runs (source : FileSource) :
    Runs p [] d (checkKind s source) fun _ _ => s.kind = .interface ↔
      source.declaredClass.isSome := by
  unfold checkKind
  split
  · exact Runs.fail fun h => h
  · exact Runs.fail fun h => h
  · next hinterface htypes =>
    refine Runs.pure ?_
    cases hkind : s.kind <;> cases hclass : source.declaredClass <;> simp_all

theorem forall₂_imp_mem {α β : Type} {R S : α → β → Prop} {as : List α} {bs : List β}
    (h : List.Forall₂ R as bs) (hi : ∀ a ∈ as, ∀ b ∈ bs, R a b → S a b) : List.Forall₂ S as bs := by
  induction h with
  | nil => exact .nil
  | cons hab _ ih =>
    refine .cons (hi _ (by simp) _ (by simp) hab) (ih fun a ha b hb => ?_)
    exact hi a (List.mem_cons_of_mem _ ha) b (List.mem_cons_of_mem _ hb)

theorem exists_of_forall₂ {α β : Type} {R : α → β → Prop} {as : List α} {bs : List β}
    (h : List.Forall₂ R as bs) : ∀ a ∈ as, ∃ b, R a b :=
  forall_mem_of_forall₂ (h.flip.imp fun _ _ hab => ⟨_, hab⟩)

theorem nodup_append_of_fresh {t : Table} {c : Catalog} {ids ids' : List (Id t)} (h : ids.Nodup)
    (h' : ids'.Nodup) (hlive : ∀ id ∈ ids, c.Live id) (hfresh : ∀ id ∈ ids', ¬ c.Live id) :
    (ids ++ ids').Nodup :=
  h.append h' fun id hid hid' => hfresh id hid' (hlive id hid)

/-- The types of a row are declared, and not filled yet. -/
def Place.HasRow (p : Place) (d : Draft) {α : Type} (declare : α → DeclarationSource)
    (kind : α → TypedeclKind) (as : List α) (ids : List (Id .typedecls)) : Prop :=
  List.Forall₂ (fun a id => p.Has d (declare a).heading (declare a).name (.typedeclTarget id) id
    { fullName := (declare a).name, file := p.file, kind := kind a }) as ids

/-- A declaration is entered, and its own record and the parts of the build say what is
declared and seen to. -/
def Place.Settles (p : Place) (c : Catalog) (d : Draft) (x : DeclarationSource)
    (target : DeclarationTarget) : Prop :=
  ∃ r, p.Has d x.heading x.name target target.reference.id r ∧
    d.Shows fun find => c.Told → find target.reference.table target.reference.id = some r →
      x.BuiltAt find p.file target

section

variable {c : Catalog} {d' : Draft} {rewritten : List Change} {α : Type}
    {declare : α → DeclarationSource}
  {kind : α → TypedeclKind} {as : List α} {ids : List (Id .typedecls)}

theorem Place.HasRow.live (h : p.HasRow d declare kind as ids) : ∀ id ∈ ids, d.catalog.Live id :=
  forall_mem_of_forall₂ (h.imp fun _ _ hh => Catalog.live_of_get? hh.record)

theorem Draft.Grows.hasRow (g : d.Grows rewritten d') (h : p.HasRow d declare kind as ids)
    (hn : ∀ id ∈ ids, Change.inserted .typedecls id ∉ rewritten) :
    p.HasRow d' declare kind as ids :=
  forall₂_imp_mem h fun _ _ id hid hh => g.has hh (hn id hid)

theorem Draft.Grows.hasRow_of_disjoint {others : List (Id .typedecls)}
    (g : d.Grows (others.map (Change.inserted .typedecls)) d') (h : p.HasRow d declare kind as ids)
    (hn : others.Disjoint ids) : p.HasRow d' declare kind as ids :=
  g.hasRow h fun id hid hmem => hn (by simpa using hmem) hid

/-- What is settled may be left while other records that are still open are changed. -/
theorem Draft.Grows.settles (g : d.Grows rewritten d') {x : DeclarationSource}
    {target : DeclarationTarget} (h : p.Settles c d x target)
    (hn : Change.inserted _ target.reference.id ∉ rewritten)
    (hopen : ∀ {t : Table} (id : Id t) (r : Record t), Change.inserted t id ∈ rewritten →
      ¬ IsFinal t r) :
    p.Settles c d' x target := by
  obtain ⟨r, hh, hshows⟩ := h
  exact ⟨r, g.has hh hn, g.shows_of (fun id r hid _ => hopen id r hid) hshows⟩

theorem Draft.Grows.settles_of_changes {source : FileSource} (g : d.Grows source.changes d')
    {x : DeclarationSource} {target : DeclarationTarget} (h : p.Settles c d x target) :
    p.Settles c d' x target :=
  g.settles h FileSource.inserted_not_mem_changes
    fun _ _ hid => (FileSource.inserted_not_mem_changes hid).elim

/-- Filling the class leaves what else is settled. -/
theorem Draft.Grows.settles_beside {id : Id .classes} (g : d.Grows [.inserted .classes id] d')
    {x : DeclarationSource} {target : DeclarationTarget} (h : p.Settles c d x target)
    (hn : target.reference.table ≠ .classes) : p.Settles c d' x target := by
  refine g.settles h (fun hid => hn ?_) fun other r hid => ?_
  · exact (Change.inserted.inj (List.mem_singleton.mp hid)).1
  · cases List.mem_singleton.mp hid
    exact fun h => h

theorem Draft.Grows.settlesRow {others : List (Id .typedecls)}
    (g : d.Grows (others.map (Change.inserted .typedecls)) d')
    (h : List.Forall₂ (fun a id => p.Settles c d (declare a) (.typedeclTarget id)) as ids)
    (hn : ids.Disjoint others) :
    List.Forall₂ (fun a id => p.Settles c d' (declare a) (.typedeclTarget id)) as ids := by
  refine forall₂_imp_mem h fun a _ id hid hsettled => g.settles hsettled ?_ fun other r hmem => ?_
  · exact fun hmem => hn hid (by simpa [DeclarationTarget.reference] using hmem)
  · obtain ⟨_, -, he⟩ := List.mem_map.mp hmem
    cases he
    exact fun h => h

/-- The types of a row enter their names one after the other. -/
theorem declareRow_runs {source : FileSource} {declareOne : α → Building (Id .typedecls)}
    (hx : ∀ a ∈ as, declare a ∈ source.declarations)
    (hrun : ∀ a d, Runs p (declare a).changes d (declareOne a) fun id d' =>
      p.Has d' (declare a).heading (declare a).name (.typedeclTarget id) id
        { fullName := (declare a).name, file := p.file, kind := kind a } ∧
      ¬ d.catalog.Live id ∧
      registrations d'.journal = registrations d.journal ++ (declare a).changes) :
    Runs p source.changes d (each declareOne as) fun ids d' =>
      p.HasRow d' declare kind as ids ∧ ids.Nodup ∧ (∀ id ∈ ids, ¬ d.catalog.Live id) ∧
      registrations d'.journal =
        registrations d.journal ++ (as.map declare).flatMap DeclarationSource.changes := by
  induction as generalizing d with
  | nil => exact Runs.pure ⟨.nil, List.nodup_nil, by simp, by simp⟩
  | cons a as ih =>
    have hsub := DeclarationSource.changes_subset (hx a (by simp))
    refine Runs.bind_of_subset hsub (hrun a d) fun id d₁ g₁ h₁ => ?_
    obtain ⟨hh, hfresh, hnames⟩ := h₁
    refine Runs.bind_same (ih fun a' ha' => hx a' (List.mem_cons_of_mem _ ha'))
      fun ids d₂ g₂ h₂ => ?_
    obtain ⟨hrow, hnodup, hfresh', hnames'⟩ := h₂
    refine Runs.pure ⟨.cons (g₂.has hh FileSource.inserted_not_mem_changes) hrow, ?_, ?_, ?_⟩
    · exact List.nodup_cons.mpr ⟨fun hid => hfresh' id hid (Catalog.live_of_get? hh.record), hnodup⟩
    · exact List.forall_mem_cons.mpr ⟨hfresh, fun i hi hl => hfresh' i hi (g₁.live i hl)⟩
    · rw [hnames', hnames, List.map_cons, List.flatMap_cons, List.append_assoc]

/-- The types of a row are filled one after the other. -/
theorem fillRow_runs {fill : Id .typedecls → α → Building Unit}
    {P : α → Id .typedecls → Lookup → TypedeclRecord → Prop} (hrow : p.HasRow d declare kind as ids)
    (hnodup : ids.Nodup)
    (hfill : ∀ a id d, d.Owns id →
      d.catalog.get? id = some { fullName := (declare a).name, file := p.file, kind := kind a } →
      Runs p [.inserted .typedecls id] d (fill id a) fun _ d' => d'.Fills id (P a id))
    (hP : ∀ {a id find r}, find .typedecls id = some r → P a id find r →
      (declare a).BuiltAt find p.file (.typedeclTarget id)) :
    Runs p (ids.map (Change.inserted .typedecls)) d (eachPair fill ids as) fun _ d' =>
      List.Forall₂ (fun a id => p.Settles c d' (declare a) (.typedeclTarget id)) as ids := by
  induction as generalizing d ids with
  | nil =>
    cases hrow
    exact Runs.pure .nil
  | cons a as ih =>
    obtain ⟨id, ids, hh, hrest, rfl⟩ := List.forall₂_cons_left_iff.mp hrow
    obtain ⟨hid, hnodup⟩ := List.nodup_cons.mp hnodup
    refine Runs.bind_of_subset (by simp) (hfill a id d hh.own hh.record) fun _ d₁ g₁ hfills => ?_
    have hrest₁ : p.HasRow d₁ declare kind as ids := g₁.hasRow hrest fun i hi => by
      rw [List.mem_singleton, Change.inserted.injEq, heq_eq_eq, not_and]
      exact fun _ he => hid (he ▸ hi)
    refine Runs.weaken_of_subset (by simp) (ih hrest₁ hnodup) fun _ d₂ g₂ hsettled =>
      .cons ?_ hsettled
    have hfills₂ : d₂.Fills id (P a id) :=
      g₂.fills hfills (by simpa using hid) fun other r hmem => ?_
    · obtain ⟨r, hr, hshows⟩ := hfills₂
      exact ⟨r, ⟨g₂.owns (g₁.owns hh.own), hr, g₂.declaresAs (g₁.declaresAs hh.declares)⟩,
        fun find hfind _ hget => hP hget (hshows find hfind)⟩
    · obtain ⟨_, -, he⟩ := List.mem_map.mp hmem
      cases he
      exact fun h => h

end

/-- The types whose names are entered. -/
def Building.Declared.types (declared : Declared) : List (Id .typedecls) :=
  declared.structs ++ declared.enums ++ declared.aliases ++ declared.functionPointers

/-- What a file has declared once the names of its types are entered. -/
structure Place.Declares (p : Place) (d : Draft) (source : FileSource) (declared : Declared) :
    Prop where
  classId : Option.Rel (p.HasClass d) source.declaredClass declared.classId
  structs : p.HasRow d .struct (fun a => if a.isOpaque then .opaqueStruct else .struct)
    source.structs
    declared.structs
  enums : p.HasRow d .enum (fun _ => .enum) source.enums declared.enums
  aliases : p.HasRow d .alias (fun _ => .alias) source.aliases declared.aliases
  functionPointers : p.HasRow d .functionPointer (fun _ => .functionPointer) source.functionPointers
    declared.functionPointers
  nodup : declared.types.Nodup

theorem declareAll_runs (hs : p.Hosts s) (source : FileSource) :
    Runs p source.changes d (declareAll s source) fun declared d' =>
      p.Declares d' source declared ∧
      registrations d'.journal = registrations d.journal ++
        (source.declaredClass.toList.map DeclarationSource.declaredClass ++
          source.declaredTypes).flatMap
          DeclarationSource.changes := by
  unfold declareAll
  have declared : ∀ x ∈
      source.declaredClass.toList.map DeclarationSource.declaredClass ++ source.declaredTypes,
      x ∈ source.declarations := fun x hx => List.mem_append_left _ hx
  simp only [FileSource.declaredTypes, List.forall_mem_append, List.forall_mem_map] at declared
  obtain ⟨classIn, ⟨⟨structsIn, enumsIn⟩, aliasesIn⟩, pointersIn⟩ := declared
  have hclass : Runs p source.changes d (Building.optional (declareClass s) source.declaredClass)
      fun o d' => Option.Rel (p.HasClass d') source.declaredClass o ∧
        registrations d'.journal = registrations d.journal ++
          (source.declaredClass.toList.map DeclarationSource.declaredClass).flatMap
            DeclarationSource.changes := by
    cases hsource : source.declaredClass with
    | none => exact Runs.pure ⟨.none, by simp⟩
    | some a =>
      have hsub := DeclarationSource.changes_subset (classIn a (by simp [hsource]))
      refine Runs.bind_of_subset hsub (declareClass_runs hs a) fun id d' _ h => ?_
      refine Runs.pure ⟨.some h.1, ?_⟩
      simp only [Option.toList_some, List.map_cons, List.map_nil, List.flatMap_singleton]
      exact h.2
  refine Runs.bind_same hclass fun classId d₁ g₁ hc => ?_
  refine Runs.bind_same (declareRow_runs structsIn
    fun a d => declareTypedecl_runs hs (enters_register hs .structs fun _ => rfl)
      (by split <;> rfl) rfl a.name) fun structs d₂ g₂ hstructs => ?_
  refine Runs.bind_same (declareRow_runs enumsIn
    fun a d => declareTypedecl_runs hs (enters_register hs .enums fun _ => rfl) rfl rfl a.name)
    fun enums d₃ g₃ henums => ?_
  refine Runs.bind_same (declareRow_runs aliasesIn
    fun a d => declareTypedecl_runs hs (enters_register hs .aliases fun _ => rfl) rfl rfl a.name)
    fun aliases d₄ g₄ haliases => ?_
  refine Runs.bind_same (declareRow_runs pointersIn
    fun a d => declareTypedecl_runs hs (enters_register hs .aliases fun _ => rfl) rfl rfl a.name)
    fun functionPointers d₅ g₅ hpointers => ?_
  obtain ⟨hs₂, hsn, -, hnames₂⟩ := hstructs
  obtain ⟨he₃, hen, hef, hnames₃⟩ := henums
  obtain ⟨ha₄, han, haf, hnames₄⟩ := haliases
  obtain ⟨hp₅, hpn, hpf, hnames₅⟩ := hpointers
  have g₃₅ := (g₃.trans g₄).trans g₅
  have kept : ∀ {ids : List (Id .typedecls)}, ∀ id ∈ ids,
      Change.inserted .typedecls id ∉ source.changes :=
    fun _ _ => FileSource.inserted_not_mem_changes
  have hnodup₃ := nodup_append_of_fresh hsn hen hs₂.live hef
  have hnodup₄ := nodup_append_of_fresh hnodup₃ han
    (List.forall_mem_append.mpr ⟨(g₃.hasRow hs₂ kept).live, he₃.live⟩) haf
  have hnodup₅ := nodup_append_of_fresh hnodup₄ hpn (List.forall_mem_append.mpr
    ⟨List.forall_mem_append.mpr ⟨((g₃.trans g₄).hasRow hs₂ kept).live, (g₄.hasRow he₃ kept).live⟩,
      ha₄.live⟩) hpf
  refine Runs.pure ⟨?_, ?_⟩
  · refine ⟨?_, g₃₅.hasRow hs₂ kept, (g₄.trans g₅).hasRow he₃ kept, g₅.hasRow ha₄ kept,
      hp₅, hnodup₅⟩
    exact rel_imp hc.1 fun _ _ hh => (g₂.trans g₃₅).has hh FileSource.inserted_not_mem_changes
  · simp only [hnames₅, hnames₄, hnames₃, hnames₂, hc.2, FileSource.declaredTypes,
      List.flatMap_append, List.append_assoc]

/-- The variables of a row are declared and stored one after the other. -/
theorem declareVariables_runs {α : Type} {declare : α → DeclarationSource} {as : List α}
    {source : FileSource} {c : Catalog} {declareOne : α → Building Unit}
    (hx : ∀ a ∈ as, declare a ∈ source.declarations)
    (hrun : ∀ a d, Runs p (declare a).changes d (declareOne a) fun _ d' =>
      (∃ id, p.Settles c d' (declare a) (.variableTarget id)) ∧
      registrations d'.journal = registrations d.journal ++ (declare a).changes) :
    Runs p source.changes d (each declareOne as) fun _ d' =>
      (∀ a ∈ as, ∃ id, p.Settles c d' (declare a) (.variableTarget id)) ∧
      registrations d'.journal =
        registrations d.journal ++ (as.map declare).flatMap DeclarationSource.changes := by
  induction as generalizing d with
  | nil => exact Runs.pure ⟨by simp, by simp⟩
  | cons a as ih =>
    have hsub := DeclarationSource.changes_subset (hx a (by simp))
    refine Runs.bind_of_subset hsub (hrun a d) fun _ d₁ g₁ h₁ => ?_
    obtain ⟨⟨id, hsettled⟩, hnames⟩ := h₁
    refine Runs.bind_same (ih fun a' ha' => hx a' (List.mem_cons_of_mem _ ha')) fun _ d₂ g₂ h₂ => ?_
    refine Runs.pure ⟨List.forall_mem_cons.mpr ⟨⟨id, ?_⟩, h₂.1⟩, ?_⟩
    · exact g₂.settles_of_changes hsettled
    · rw [h₂.2, hnames, List.map_cons, List.flatMap_cons, List.append_assoc]

/-- The types of a file are filled row by row. The records of the other rows stay as they are. -/
theorem fillTypes_runs (hs : p.Hosts s) {declared : Declared} {source : FileSource} {c : Catalog}
    {rewritten : List Change} {rest : Building Unit} {Q : Unit → Draft → Prop}
    (hd : p.Declares d source declared)
    (hsub : declared.types.map (Change.inserted .typedecls) ⊆ rewritten)
    (hrest : ∀ d', d.Grows (declared.types.map (Change.inserted .typedecls)) d' →
      (∀ x ∈ source.declaredTypes, ∃ id, p.Settles c d' x (.typedeclTarget id)) →
      Runs p rewritten d' rest Q) :
    Runs p rewritten d
      (do eachPair (fillStruct s) declared.structs source.structs
          eachPair (fillEnum s) declared.enums source.enums
          eachPair (fillAlias s) declared.aliases source.aliases
          eachPair (fillFunctionPointer s) declared.functionPointers source.functionPointers
          rest) Q := by
  suffices hrows : Runs p (declared.types.map (Change.inserted .typedecls)) d
      (do eachPair (fillStruct s) declared.structs source.structs
          eachPair (fillEnum s) declared.enums source.enums
          eachPair (fillAlias s) declared.aliases source.aliases
          eachPair (fillFunctionPointer s) declared.functionPointers source.functionPointers)
      fun _ d' => ∀ x ∈ source.declaredTypes, ∃ id, p.Settles c d' x (.typedeclTarget id) by
    simpa only [bind_assoc] using Runs.bind_of_subset hsub hrows fun _ => hrest
  have hnodup := hd.nodup
  simp only [Declared.types, List.nodup_append', List.disjoint_append_left] at hnodup
  obtain ⟨⟨⟨hsn, hen, hse⟩, han, hsa, hea⟩, hpn, ⟨hsp, hep⟩, hap⟩ := hnodup
  refine Runs.bind_of_subset (List.map_subset _ fun i hi => by simp [Declared.types, hi])
    (fillRow_runs (c := c) hd.structs hsn (fun a _ _ => fillStruct_runs hs a)
      fun hr h => ⟨⟨_, hr, h⟩, trivial⟩)
    fun _ d₁ g₁ hstructs₁ => ?_
  have henums₁ := g₁.hasRow_of_disjoint hd.enums hse
  have haliases₁ := g₁.hasRow_of_disjoint hd.aliases hsa
  have hpointers₁ := g₁.hasRow_of_disjoint hd.functionPointers hsp
  refine Runs.bind_of_subset (List.map_subset _ fun i hi => by simp [Declared.types, hi])
    (fillRow_runs (c := c) henums₁ hen (fun a _ _ => fillEnum_runs a)
      fun hr h => ⟨⟨_, hr, h.1⟩, _, hr, h.2⟩)
    fun _ d₂ g₂ henums₂ => ?_
  have hstructs₂ := g₂.settlesRow hstructs₁ hse
  have haliases₂ := g₂.hasRow_of_disjoint haliases₁ hea
  have hpointers₂ := g₂.hasRow_of_disjoint hpointers₁ hep
  refine Runs.bind_of_subset (List.map_subset _ fun i hi => by simp [Declared.types, hi])
    (fillRow_runs (c := c) haliases₂ han (fun a _ _ => fillAlias_runs hs a)
      fun hr h => ⟨⟨_, hr, h⟩, trivial⟩)
    fun _ d₃ g₃ haliases₃ => ?_
  have hstructs₃ := g₃.settlesRow hstructs₂ hsa
  have henums₃ := g₃.settlesRow henums₂ hea
  have hpointers₃ := g₃.hasRow_of_disjoint hpointers₂ hap
  refine Runs.weaken_of_subset (List.map_subset _ fun i hi => by simp [Declared.types, hi])
    (fillRow_runs (c := c) hpointers₃ hpn (fun a _ _ => fillFunctionPointer_runs hs a)
      fun hr h => ⟨⟨_, hr, h⟩, trivial⟩) fun _ d₄ g₄ hpointers₄ => ?_
  simp only [FileSource.declaredTypes, List.forall_mem_append, List.forall_mem_map]
  exact ⟨⟨⟨exists_of_forall₂ (g₄.settlesRow hstructs₃ hsp),
    exists_of_forall₂ (g₄.settlesRow henums₃ hep)⟩,
    exists_of_forall₂ (g₄.settlesRow haliases₃ hap)⟩, exists_of_forall₂ hpointers₄⟩

theorem declareAllVariables_runs (hs : p.Hosts s) {source : FileSource} {c : Catalog}
    {rewritten : List Change} {rest : Building Unit} {Q : Unit → Draft → Prop}
    (hsub : source.changes ⊆ rewritten)
    (hrest : ∀ d', d.Grows source.changes d' →
      (∀ x ∈ source.declaredVariables, ∃ id, p.Settles c d' x (.variableTarget id)) →
      registrations d'.journal =
        registrations d.journal ++ source.declaredVariables.flatMap DeclarationSource.changes →
      Runs p rewritten d' rest Q) :
    Runs p rewritten d
      (do let _ ← each (declareVariable s (register s .constants) .constant) source.constants
          let _ ← each (declareVariable s (register s .globals) .global) source.globals
          rest) Q := by
  have declared : ∀ x ∈ source.declaredVariables, x ∈ source.declarations :=
    fun x hx => List.mem_append_right _ hx
  simp only [FileSource.declaredVariables, List.forall_mem_append, List.forall_mem_map] at declared
  refine Runs.bind_of_subset hsub (declareVariables_runs (c := c) declared.1 fun a d =>
    (declareVariable_runs hs (enters_register hs .constants fun _ => rfl) rfl rfl a).imp
    fun _ _ _ h => ?_)
    fun _ d₁ g₁ hconstants => ?_
  · obtain ⟨⟨id, r, hhas, hstored⟩, hnames⟩ := h
    exact ⟨⟨id, r, hhas, fun find hfind _ _ => ⟨hstored find hfind, trivial⟩⟩, hnames⟩
  refine Runs.bind_of_subset hsub (declareVariables_runs (c := c) declared.2 fun a d =>
    (declareVariable_runs hs (enters_register hs .globals fun _ => rfl) rfl rfl a).imp
    fun _ _ _ h => ?_)
    fun _ d₂ g₂ hglobals => ?_
  · obtain ⟨⟨id, r, hhas, hstored⟩, hnames⟩ := h
    exact ⟨⟨id, r, hhas, fun find hfind _ _ => ⟨hstored find hfind, trivial⟩⟩, hnames⟩
  refine hrest d₂ (g₁.trans g₂) ?_ ?_
  · simp only [FileSource.declaredVariables, List.forall_mem_append, List.forall_mem_map]
    refine ⟨fun a ha => ?_, hglobals.1⟩
    obtain ⟨id, hsettled⟩ := hconstants.1 a ha
    exact ⟨id, g₂.settles_of_changes hsettled⟩
  · rw [hglobals.2, hconstants.2, FileSource.declaredVariables, List.flatMap_append,
      List.append_assoc]

/-- The class of a file is filled last, with nothing else left open. -/
theorem fillClass_settles (hs : p.Hosts s) {c : Catalog} {source : ClassSource} {id : Id .classes}
    (hclass : p.HasClass d source id) (ht : c.Told → d.catalog.Told) :
    Runs p [.inserted .classes id] d (fillClass s id source) fun _ d' =>
      p.Settles c d' (.declaredClass source) (.classTarget id) ∧
      ∃ id r, p.Has d' .classes source.name (.classTarget id) id r ∧ r.fullName = source.name ∧
        r.inherits.length = source.inherits.length := by
  refine (fillClass_runs hs source hclass.own hclass.record).imp fun _ d' g h => ?_
  obtain ⟨r, hr, hname, hlength, hshows⟩ := h
  have hhas : p.Has d' .classes source.name (.classTarget id) id r :=
    ⟨g.owns hclass.own, hr, g.declaresAs hclass.declares⟩
  refine ⟨⟨r, hhas, fun find hfind htold hget => ?_⟩, id, r, hhas, hname, hlength⟩
  obtain ⟨hstored, hchecked⟩ := hshows find hfind (ht htold)
  exact ⟨⟨r, hget, hstored⟩, hchecked⟩

/-- Filling comes after all types are declared. Only their records change. -/
theorem fillAll_runs (hs : p.Hosts s) {declared : Declared} {source : FileSource}
    (hd : p.Declares d source declared) :
    ∃ rewritten, Runs p rewritten d (fillAll s declared source) fun _ d' =>
      (∀ x ∈ source.declarations, ∃ target, p.Settles d.catalog d' x target) ∧
      (∀ a ∈ source.declaredClass, ∃ id r, p.Has d' .classes a.name (.classTarget id) id r ∧
        r.fullName = a.name ∧ r.inherits.length = a.inherits.length) ∧
      registrations d'.journal = registrations d.journal ++
        source.declaredVariables.flatMap DeclarationSource.changes := by
  let rewritten := declared.types.map (Change.inserted .typedecls) ++
    (source.changes ++ declared.classId.toList.map (Change.inserted .classes))
  refine ⟨rewritten, ?_⟩
  have hchanges : source.changes ⊆ rewritten :=
    List.subset_append_of_subset_right _ (List.subset_append_left _ _)
  refine fillTypes_runs hs (c := d.catalog) hd (List.subset_append_left _ _) fun d₁ g₁ htypes => ?_
  refine declareAllVariables_runs hs (c := d.catalog) hchanges fun d₂ g₂ hvariables hnames => ?_
  have htypes₂ : ∀ x ∈ source.declaredTypes, ∃ id, p.Settles d.catalog d₂ x (.typedeclTarget id) :=
    fun x hx => (htypes x hx).imp fun _ h => g₂.settles_of_changes h
  rw [g₁.unnamed (by simp)] at hnames
  have hclass := hd.classId
  split
  · next id a hid hsource =>
    rw [hid, hsource, Option.rel_some_some] at hclass
    have hclass₂ := g₂.has (g₁.has hclass (by simp)) FileSource.inserted_not_mem_changes
    refine Runs.weaken_of_subset (by simp [rewritten, hid])
      (fillClass_settles hs (c := d.catalog) hclass₂ fun ht => g₂.told (g₁.told ht))
        fun _ d₃ g₃ h₃ => ?_
    obtain ⟨hsettled, hfilled⟩ := h₃
    refine ⟨?_, by simpa [hsource] using hfilled, by rw [g₃.unnamed (by simp), hnames]⟩
    simp only [FileSource.declarations, List.forall_mem_append, hsource]
    refine ⟨⟨by simpa using ⟨_, hsettled⟩, fun x hx => ?_⟩, fun x hx => ?_⟩
    · obtain ⟨i, hx₂⟩ := htypes₂ x hx
      exact ⟨_, g₃.settles_beside hx₂ (by simp [DeclarationTarget.reference])⟩
    · obtain ⟨i, hx₂⟩ := hvariables x hx
      exact ⟨_, g₃.settles_beside hx₂ (by simp [DeclarationTarget.reference])⟩
  · next hne =>
    have hnone : source.declaredClass = none := by
      cases hsource : source.declaredClass with
      | none => rfl
      | some a =>
        rw [hsource] at hclass
        generalize hid : declared.classId = o at hclass
        cases hclass
        exact (hne _ a hid hsource).elim
    refine Runs.pure ⟨?_, by simp [hnone], hnames⟩
    simp only [FileSource.declarations, List.forall_mem_append, hnone]
    exact ⟨⟨by simp, fun x hx => (htypes₂ x hx).elim fun _ h => ⟨_, h⟩⟩,
      fun x hx => (hvariables x hx).elim fun _ h => ⟨_, h⟩⟩

theorem importAll_runs (hs : p.Hosts s) (names : List String) {d : Draft} :
    Runs p [] d (each (importFile s) names) fun _ d' =>
      (names.filterMap (importedFile? s)).length = names.length ∧
      ∀ file ∈ names.filterMap (importedFile? s), file ∈ d'.catalog.parsed ∨ file ∈ p.files := by
  induction names generalizing d with
  | nil => exact Runs.pure (by simp)
  | cons name names ih =>
    refine Runs.bind (importFile_runs hs name) fun _ d₁ _ h₁ => ?_
    obtain ⟨file, hf, hfile⟩ := h₁
    refine Runs.bind ih fun _ d₂ g₂ h₂ => ?_
    refine Runs.pure ?_
    rw [List.filterMap_cons_some hf]
    refine ⟨by simp [h₂.1], ?_⟩
    intro other hother
    rcases List.mem_cons.mp hother with rfl | hother
    · exact hfile.imp_left fun h => g₂.parsed h
    · exact h₂.2 other hother

/-- What is settled at the end of a build can be told from the records of its journal. -/
theorem reproduced_of_settles {c : Catalog} (ht : c.Told)
    (hnames : registrations d.journal = p.source.changes)
    (hsettled : ∀ x ∈ p.source.declarations, ∃ target, p.Settles c d x target) :
    ((p.frame d.journal).build d.catalog p.outer).Reproduced d.catalog where
  names := hnames
  stored x hx := by
    obtain ⟨target, r, hhas, hshows⟩ := hsettled x hx
    refine ⟨target, hhas.declares, fun find hfind => ?_⟩
    exact hshows find (fun id r _ own hget => hfind id r own hget) ht
      (hfind _ r hhas.own hhas.record)

/-- A build that ends without an error is complete, and has a class if its file is to have one. -/
theorem file_runs (hs : p.Hosts s) {source : FileSource} (hsource : p.source = source)
    (himports : p.imports = source.imports.filterMap (importedFile? s)) (hd : d.journal = []) :
    ∃ rewritten, Runs p rewritten d (file s source) fun _ d' =>
      (p.frame d'.journal).Complete d'.catalog p.outer ∧
      (s.kind = .interface ↔ source.declaredClass.isSome) ∧
      (d.catalog.Told → ((p.frame d'.journal).build d'.catalog p.outer).Reproduced d'.catalog) := by
  unfold file
  refine Runs.bind_exists (checkKind_runs source) fun _ d₁ g₁ hkind => ?_
  refine Runs.bind_exists (importAll_runs hs source.imports) fun _ d₂ g₂ himported => ?_
  refine Runs.bind_exists (declareAll_runs hs source) fun declared d₃ g₃ hdeclared => ?_
  obtain ⟨hdeclares, hnames₃⟩ := hdeclared
  obtain ⟨rewritten, hfill⟩ := fillAll_runs hs hdeclares
  refine ⟨rewritten, hfill.imp (fun _ d₄ g₄ hfilled => ?_)⟩
  obtain ⟨hsettled, hclass, hnames₄⟩ := hfilled
  have hnames : registrations d₄.journal = source.changes := by
    rw [hnames₄, hnames₃, (g₁.trans g₂).unnamed (by simp), hd]
    simp only [registrations_nil, List.nil_append, FileSource.changes_eq, FileSource.declarations,
      List.flatMap_append]
  refine ⟨⟨?_, ?_, ?_, ?_, ?_⟩, hkind, fun ht => ?_⟩
  · have hlength : p.imports.length = p.source.imports.length := by
      rw [himports, hsource]
      exact himported.1
    exact hlength
  · intro other hother
    have hmem : other ∈ source.imports.filterMap (importedFile? s) := himports ▸ hother
    rcases himported.2 other hmem with h | h
    · exact .inl (g₄.parsed (g₃.parsed h))
    · exact .inr (List.mem_cons.mp h)
  · intro a ha
    obtain ⟨id, r, hhas, hrest⟩ := hclass a (hsource ▸ ha)
    exact ⟨_, r, hhas.declares.class_found, rfl, hhas.own, hhas.record, hrest⟩
  · intro entry hentry
    have hmem : entry ∈ source.names := hsource ▸ hentry
    rw [← FileSource.map_declarations] at hmem
    obtain ⟨x, hx, rfl⟩ := List.mem_map.mp hmem
    obtain ⟨target, r, hhas, -⟩ := hsettled x hx
    exact hhas.declares.declares
  · intro h name hc
    change Change.registered h name ∈ p.source.changes
    rw [hsource, ← hnames]
    exact List.mem_reverse.mpr (List.mem_filter.mpr ⟨hc, rfl⟩)
  · have ht₃ : d₃.catalog.Told := g₃.told ((g₁.trans g₂).told ht)
    exact reproduced_of_settles ht₃ (hsource ▸ hnames) (hsource ▸ hsettled)

end InterfaceCatalog
