import InterfaceCatalog.Proofs.Build.Types
import InterfaceCatalog.Proofs.Query.Descent
import InterfaceCatalog.Proofs.Query.Mentions
import InterfaceCatalog.Query.TypeText

namespace InterfaceCatalog

namespace TypeSource

variable {find : Lookup}

theorem StoredBefore.exists_record {τ : TypeSource} {next : Option (Id .types)} {id : Id .types}
    (h : τ.StoredBefore find next id) : ∃ r :
    TypeRecord, find .types id = some r ∧ r.next = next := by
  cases τ with
  | named name qualifiers freeFunction params =>
    obtain ⟨r, hr, -, -, -, hnext, -⟩ := h
    exact ⟨r, hr, hnext⟩

/-- A list of parameters is as long as any other one that starts with the same type. -/
theorem StoredFrom.length_eq {τs τs' : List TypeSource} {first : Option (Id .types)}
    (h : StoredFrom find τs first) (h' : StoredFrom find τs' first) : τs.length = τs'.length := by
  induction τs generalizing τs' first with
  | nil =>
    cases τs' with
    | nil => rfl
    | cons τ' τs' =>
      obtain ⟨id, next, hid, -⟩ := h'
      cases h.symm.trans hid
  | cons τ τs ih =>
    obtain ⟨id, next, rfl, hτ, hτs⟩ := h
    cases τs' with
    | nil => cases h'
    | cons τ' τs' =>
      obtain ⟨id', next', hid, hτ', hτs'⟩ := h'
      cases hid
      obtain ⟨r, hr, rfl⟩ := hτ.exists_record
      obtain ⟨r', hr', rfl⟩ := hτ'.exists_record
      cases hr.symm.trans hr'
      rw [List.length_cons, List.length_cons, ih hτs hτs']

end TypeSource

namespace Catalog

variable {c : Catalog} {find : Lookup} (hfind : find.Within c)

include hfind

theorem length_le_slots {τs : List TypeSource} {first : Option (Id .types)}
    (h : TypeSource.StoredFrom find τs first) : τs.length ≤ c.store.types.slots.size := by
  cases τs with
  | nil => exact Nat.zero_le _
  | cons τ τs =>
    obtain ⟨id, next, hid, hτ, hτs⟩ := h
    refine lt_slots_of_descent (c := c) (t := .types) (S := fun n id => ∃ τ τs next, τs.length = n ∧
      TypeSource.StoredBefore find next τ id ∧ TypeSource.StoredFrom find τs next) ?_ ?_ ?_
      ⟨τ, τs, next, rfl, hτ, hτs⟩
    · rintro n id ⟨τ, τs, next, -, hτ, -⟩
      obtain ⟨r, hr, -⟩ := hτ.exists_record
      exact live_of_get? (hfind id r hr)
    · rintro m n id ⟨τ, τs, next, rfl, hτ, hτs⟩ ⟨τ', τs', next', rfl, hτ', hτs'⟩
      obtain ⟨r, hr, rfl⟩ := hτ.exists_record
      obtain ⟨r', hr', rfl⟩ := hτ'.exists_record
      cases hr.symm.trans hr'
      exact hτs.length_eq hτs'
    · rintro n id ⟨τ, τs, next, hn, -, hτs⟩
      cases τs with
      | nil => cases hn
      | cons τ' τs' =>
        obtain ⟨id', next', -, hτ', hτs'⟩ := hτs
        exact ⟨id', τ', τs', next', Nat.succ.inj hn, hτ', hτs'⟩

theorem forall₂_typeChain {τs : List TypeSource} {first : Option (Id .types)}
    (h : TypeSource.StoredFrom find τs first) {fuel : Nat} (hf : τs.length ≤ fuel) :
    List.Forall₂ (fun τ (v : View .types) => find .types v.id = some v.record ∧
      TypeSource.StoredBefore find v.record.next τ v.id) τs (c.typeChain fuel first) := by
  induction τs generalizing first fuel with
  | nil =>
    cases h
    cases fuel with
    | zero => exact .nil
    | succ fuel => exact .nil
  | cons τ τs ih =>
    obtain ⟨fuel, rfl⟩ := Nat.exists_eq_add_one_of_ne_zero (Nat.ne_zero_of_lt hf)
    obtain ⟨id, next, rfl, hτ, hτs⟩ := h
    obtain ⟨r, hr, rfl⟩ := hτ.exists_record
    have hview : c.optionView? (some id) = some ⟨id, r⟩ := view?_of_get? (hfind id r hr)
    rw [typeChain, hview]
    exact .cons ⟨hr, hτ⟩ (ih hτs (Nat.le_of_succ_le_succ hf))

/-- The parameters of a type are found again, in order. -/
theorem forall₂_typeParameters {τs : List TypeSource} {r : TypeRecord}
    (h : TypeSource.StoredFrom find τs r.firstParameter) :
    List.Forall₂ (fun τ (v : View .types) => find .types v.id = some v.record ∧
      TypeSource.StoredBefore find v.record.next τ v.id) τs (c.typeParameters r) :=
  forall₂_typeChain hfind h (length_le_slots hfind h)

end Catalog

namespace Catalog

/-- What is known of each type of a file: it has as many parameters as it takes, none unless it is
builtin; its sort is what its name says; and a name that the file itself declares refers to that
declaration, wherever in the file it stands. -/
structure KeepsType (c : Catalog) (file : String) (source : FileSource) (r : TypeRecord) :
    Prop where
  ofFile : r.file = file
  count : (c.typeParameters r).length = r.builtin.parameterCount
  bare : r.kind ≠ .regular ∨ r.typedecl ≠ none → c.typeParameters r = []
  sorted : r.IsSorted
  known : fixedMeaning? r.fullName = none → ∀ h, (h, r.fullName) ∈ source.typeNames →
    ∃ e, (c.registry.index h).find? r.fullName = some e ∧ e.file = file ∧
    h.meaning? e.id = some r.meaning

mutual

/-- A stored type is read as a written one, and its parameters as those of the
written one, in order. -/
def ReadsType (c : Catalog) (file : String) (source : FileSource) : TypeSource → View .types → Prop
  | .named name qualifiers freeFunction params, v =>
    v.record.fullName = name ∧ v.record.qualifiers = qualifiers ∧
      v.record.freeFunction = freeFunction ∧
      c.KeepsType file source v.record ∧ c.ReadsTypes file source params (c.typeParameters v.record)

def ReadsTypes (c : Catalog) (file : String) (source : FileSource) :
    List TypeSource → List (View .types) → Prop
  | [], [] => True
  | param :: params, v :: vs => c.ReadsType file source param v ∧ c.ReadsTypes file source params vs
  | [], _ :: _ | _ :: _, [] => False

end

/-- A type is read back as it is written, and as nothing else. -/
def ReadsBackType (c : Catalog) (file : String) (source : FileSource) (τ : TypeSource)
    (id : Id .types) : Prop :=
  ∃ v, c.view? id = some v ∧ c.ReadsType file source τ v ∧ ∀ τ', c.ReadsType file source τ' v →
    τ' = τ

/-- What a catalog keeps of the types that a file writes: where its unit has a type, and where a
property has one that no accessor takes over, it is the one that is written there. None of them has
too few or too many parameters. -/
structure KeepsTypes (c : Catalog) (file : String) (source : FileSource) : Prop where
  listed : List.Forall₂ (c.ReadsBackType file source) (source.mentions.filterMap Mention.type?)
    ((c.fileMentions file).filterMap Mention.type?)
  shared : ∀ τ ∈ source.sharedMentions.filterMap Mention.type?, ∃ id,
    c.ReadsBackType file source τ id
  counted : ∀ τ ∈ (source.mentions ++ source.sharedMentions).filterMap Mention.type?, τ.Counted

variable {c : Catalog} {file : String} {source : FileSource}

mutual

theorem ReadsType.eq : ∀ {τ τ' : TypeSource} {v : View .types},
    c.ReadsType file source τ v → c.ReadsType file source τ' v → τ = τ'
  | .named .., .named .., _, h, h' => by
    obtain ⟨rfl, rfl, rfl, -, hparams⟩ := h
    obtain ⟨rfl, rfl, rfl, -, hparams'⟩ := h'
    rw [ReadsTypes.eq hparams hparams']

theorem ReadsTypes.eq : ∀ {τs τs' : List TypeSource} {vs : List (View .types)},
    c.ReadsTypes file source τs vs → c.ReadsTypes file source τs' vs → τs = τs'
  | [], [], _, _, _ => rfl
  | _ :: _, _ :: _, _ :: _, h, h' => by rw [ReadsType.eq h.1 h'.1, ReadsTypes.eq h.2 h'.2]
  | [], _ :: _, [], _, h' | [], _ :: _, _ :: _, h', _ => h'.elim
  | _ :: _, _, [], h, _ => h.elim
  | _ :: _, [], _ :: _, _, h' => h'.elim

end

mutual

theorem ReadsType.counted :
    ∀ {τ : TypeSource} {v : View .types}, c.ReadsType file source τ v → τ.Counted
  | .named .., _, h => by
    obtain ⟨rfl, -, -, hkept, hparams⟩ := h
    obtain ⟨hlength, hcounted⟩ := ReadsTypes.counted hparams
    exact ⟨hlength.trans (hkept.count.trans hkept.sorted.parameterCount_eq), hcounted⟩

theorem ReadsTypes.counted : ∀ {τs : List TypeSource} {vs : List (View .types)},
    c.ReadsTypes file source τs vs → τs.length = vs.length ∧ TypeSource.AllCounted τs
  | [], [], _ => ⟨rfl, trivial⟩
  | _ :: _, _ :: _, h => by
    obtain ⟨hlength, hcounted⟩ := ReadsTypes.counted h.2
    exact ⟨congrArg Nat.succ hlength, h.1.counted, hcounted⟩
  | [], _ :: _, h | _ :: _, [], h => h.elim

end

theorem own_within (c : Catalog) (journal : List Change) : (c.own journal).Within c :=
  fun _ _ h => (own_eq_some_iff.mp h).2

theorem own_covers (c : Catalog) (journal : List Change) : (c.own journal).Covers c journal :=
  fun _ _ hid hget => own_eq_some_iff.mpr ⟨hid, hget⟩

theorem keepsType_of_own {o : Owner} (hown : c.ForTypes o (c.OwnsType o))
    (hknows : c.ForTypes o (c.Knows o source)) {id : Id .types} {r : TypeRecord}
    (h : c.own o.journal .types id = some r) : c.KeepsType o.file source r := by
  obtain ⟨hid, hget⟩ := own_eq_some_iff.mp h
  have howned := hown id r hid hget
  obtain ⟨params, hlength, hstored⟩ := howned.parameters
  have hcount : (c.typeParameters r).length = r.builtin.parameterCount :=
    (forall₂_typeParameters (own_within c o.journal) hstored).length_eq.symm.trans hlength
  refine ⟨howned.file, hcount, fun hr => ?_, howned.sorted, fun hfixed k hk => ?_⟩
  · exact List.eq_nil_of_length_eq_zero (hcount.trans (howned.sorted.parameterCount_eq_zero hr))
  · obtain ⟨target, hentered, hmeaning⟩ := hknows id r hid hget hfixed k hk
    exact ⟨_, hentered.found, rfl, hmeaning⟩

mutual

theorem readsType_of_storedBefore {o : Owner} (hown : c.ForTypes o (c.OwnsType o))
    (hknows : c.ForTypes o (c.Knows o source)) {next : Option (Id .types)} :
    ∀ {τ : TypeSource} {v : View .types}, c.own o.journal .types v.id = some v.record →
      τ.StoredBefore (c.own o.journal) next v.id → c.ReadsType o.file source τ v
  | .named .., v, hv, h => by
    obtain ⟨r, hr, rfl, rfl, rfl, -, hparams⟩ := h
    cases hv.symm.trans hr
    exact ⟨rfl, rfl, rfl, keepsType_of_own hown hknows hv,
      readsTypes_of_forall₂ hown hknows (forall₂_typeParameters (own_within c o.journal) hparams)⟩

theorem readsTypes_of_forall₂ {o : Owner} (hown : c.ForTypes o (c.OwnsType o))
    (hknows : c.ForTypes o (c.Knows o source)) : ∀ {τs : List TypeSource} {vs : List (View .types)},
    List.Forall₂ (fun τ (v : View .types) => c.own o.journal .types v.id = some v.record ∧
      TypeSource.StoredBefore (c.own o.journal) v.record.next τ v.id) τs vs →
      c.ReadsTypes o.file source τs vs
  | [], [], _ => trivial
  | τ :: τs, v :: vs, h => by
    obtain ⟨hv, hvs⟩ := List.forall₂_cons.mp h
    exact ⟨readsType_of_storedBefore hown hknows hv.1 hv.2, readsTypes_of_forall₂ hown hknows hvs⟩
  | [], _ :: _, h | _ :: _, [], h => nomatch h

end

theorem readsBackType_of_storedAt {o : Owner} (hown : c.ForTypes o (c.OwnsType o))
    (hknows : c.ForTypes o (c.Knows o source)) {τ : TypeSource} {id : Id .types}
    (h : τ.StoredAt (c.own o.journal) id) : c.ReadsBackType o.file source τ id := by
  obtain ⟨r, hr, -⟩ := TypeSource.StoredBefore.exists_record h
  have hreads : c.ReadsType o.file source τ ⟨id, r⟩ := readsType_of_storedBefore hown hknows hr h
  exact ⟨⟨id, r⟩, view?_of_get? (own_within c o.journal id r hr), hreads, fun _ hτ' =>
    hτ'.eq hreads⟩

end Catalog

namespace Database

variable {db : Database}

theorem keepsTypes_of_moves {q : Progress} (h : MeantMoves [] ⟨{}, []⟩ q) {b : Build}
    (hb : b ∈ q.catalog.builds) (hr : b.Reproduced q.catalog) :
    q.catalog.KeepsTypes b.file b.source := by
  have hown := h.types.1 b.owner (owner_mem_owners hb _)
  have hwithin : (q.catalog.own b.journal).Within q.catalog := Catalog.own_within _ _
  have hcovers : (q.catalog.own b.journal).Covers q.catalog b.journal := Catalog.own_covers _ _
  have hback {τ : TypeSource} {id : Id .types} (hτ : τ.StoredAt (q.catalog.own b.journal) id) :
      q.catalog.ReadsBackType b.file b.source τ id :=
    Catalog.readsBackType_of_storedAt hown (h.types.2 b hb) hτ
  have hlisted : List.Forall₂ (q.catalog.ReadsBackType b.file b.source)
      (b.source.mentions.filterMap Mention.type?)
          ((q.catalog.fileMentions b.file).filterMap Mention.type?) :=
    (Mention.forall₂_types (mentions_of_moves h.forget hb hr hwithin hcovers)).imp fun _ _ => hback
  have hshared : ∀ τ ∈ b.source.sharedMentions.filterMap Mention.type?,
      ∃ id, q.catalog.ReadsBackType b.file b.source τ id := by
    intro τ hτ
    obtain ⟨m, hm, hτ⟩ := List.mem_filterMap.mp hτ
    obtain ⟨m', hmentioned⟩ := Catalog.exists_mentioned hwithin hr hcovers hm
    cases hmentioned with
    | type hstored =>
      cases hτ
      exact ⟨_, hback hstored⟩
    | value _ => cases hτ
  refine ⟨hlisted, hshared, fun τ hτ => ?_⟩
  rw [List.filterMap_append, List.mem_append] at hτ
  obtain ⟨id, v, -, hreads, -⟩ := hτ.elim (exists_of_forall₂ hlisted τ) (hshared τ)
  exact hreads.counted

/-- A catalog that loading leads to from another one. All names are declared in it, and each type
that is new was stored as it was meant. -/
structure MeantLeads (c c' : Catalog) : Prop where
  settled : Settled c'
  announced : c'.Announced
  moves : MeantMoves [] ⟨c, []⟩ ⟨c', []⟩

theorem MeantLeads.load {c : Catalog} (disk : Disk) (name : String) (h : MeantLeads c db.catalog) :
    MeantLeads c (db.load disk name).2.catalog := by
  obtain ⟨hmoves, hannounced⟩ := load_meant db disk name h.settled h.announced
  exact ⟨load_settled disk name h.settled, hannounced, h.moves.trans hmoves⟩

theorem Reachable.meantLeads (h : db.Reachable) : MeantLeads {} db.catalog :=
  h.induction (P := fun db => MeantLeads {} db.catalog)
    (fun _ _ => ⟨settled_empty, Catalog.announced_empty, .refl⟩) (fun _ h => h) MeantLeads.load

theorem Later.meantLeads {db' : Database} (hl : Later db db') (h : db.Reachable) :
    MeantLeads db.catalog db'.catalog := by
  induction hl with
  | refl => exact ⟨h.settled, h.meantLeads.announced, .refl⟩
  | tail _ hr ih =>
    exact hr.induction (P := fun db' => MeantLeads db.catalog db'.catalog)
      (fun _ h => h) MeantLeads.load ih

theorem Reachable.keepsTypes_between (h : db.Reachable) {p q : Progress}
    (hp : MeantMoves [] ⟨{}, []⟩ p) (hpq : MeantMoves [] p q)
    (hq : MeantMoves [] q ⟨db.catalog, []⟩) {file : String} {source : FileSource}
    (hbuilt : p.catalog.HasBuilt file source) : q.catalog.KeepsTypes file source := by
  obtain ⟨b, hb, rfl, rfl, hr⟩ := h.reproduced_between hp.forget hpq.forget hq.forget hbuilt
  exact keepsTypes_of_moves (hp.trans hpq) hb hr

/-- Every type that a file writes is read back as it is written, in each state after the file
is built: between requests, and in the middle of any later one. Whenever a type is stored, what
it refers to is what its name stands for. A type in which there are too few or too many
parameters is not resolved. -/
theorem Reachable.types_kept (h : db.Reachable) :
    MeantMoves [] ⟨{}, []⟩ ⟨db.catalog, []⟩ ∧
    (∀ db', Later db db' → MeantMoves [] ⟨db.catalog, []⟩ ⟨db'.catalog, []⟩ ∧
      ∀ file source, db.catalog.HasBuilt file source → db'.catalog.KeepsTypes file source) ∧
    (∀ p q, MeantMoves [] ⟨{}, []⟩ p → MeantMoves [] p q → MeantMoves [] q ⟨db.catalog, []⟩ →
      ∀ file source, p.catalog.HasBuilt file source → q.catalog.KeepsTypes file source) ∧
    ∀ (s : Site) (d : Draft) (τ : TypeSource), ¬ τ.Counted →
      ∃ e d', Building.resolveType s τ d = .error e d' :=
  ⟨h.meantLeads.moves,
    fun _ hlater => ⟨(hlater.meantLeads h).moves, fun _ _ => (hlater.reachable h).keepsTypes_between
      h.meantLeads.moves (hlater.meantLeads h).moves .refl⟩,
    fun _ _ hp hpq hq _ _ => h.keepsTypes_between hp hpq hq,
    fun s d _ hτ => Building.resolveType_eq_error hτ s d⟩

/-- Two structs that mention each other, the first one before the second one is written, and a list
of parameters within another one. -/
def nestingSource : FileSource :=
  let named (name : String) (params : List TypeSource) : TypeSource :=
    .named name ⟨false, false, false⟩ none params
  let nested : TypeSource := .named "hash" ⟨true, false, false⟩ (some "drop")
    [named "hash" [named "S" [], named "list" [named "A" []]],
      named "array" [.named "T" ⟨false, true, true⟩ none []]]
  { declaredClass := some {
      name := "A"
      methods := [{ name := "m", parameters := [{ name := "x", type := nested }] }] }
    structs := [
      { name := "S", fields := [{ name := "a", type := named "T" [] }] },
      { name := "T", fields := [{ name := "b", type := named "S" [] }] }] }

def nestingParsed : Database :=
  ((readingDatabase nestingSource).parse cyclicDisk "a.eo").2

/-- The second file says the same as the first one. It fails, and the types of the first one
stay. -/
def nestingAgain : Database :=
  (nestingParsed.parse cyclicDisk "b.eo").2

theorem types_kept_nesting :
    nestingParsed.Reachable ∧ Later nestingParsed nestingAgain ∧
      nestingParsed.catalog.HasBuilt "a.eo" nestingSource ∧
      nestingAgain.catalog.KeepsTypes "a.eo" nestingSource ∧
      ((nestingAgain.catalog.fileMentions "a.eo").filterMap Mention.type?).map (fun id =>
          (nestingAgain.catalog.view? id).map fun v => nestingAgain.catalog.typeText v.record) =
        [some "own(hash<hash<S, list<A>>, array<const(ptr(T))>>)", some "T", some "S"] := by
  have hreachable : nestingParsed.Reachable := .parse _ _ (readingDatabase_reachable _)
  have hlater : Later nestingParsed nestingAgain := .single (.parse _ cyclicDisk "b.eo")
  have hbuilt : nestingParsed.catalog.HasBuilt "a.eo" nestingSource :=
    hasBuilt_of_parse (by decide +kernel)
  exact ⟨hreachable, hlater, hbuilt, (hreachable.types_kept.2.1 _ hlater).2 _ _ hbuilt,
    by decide +kernel⟩

end Database

end InterfaceCatalog
