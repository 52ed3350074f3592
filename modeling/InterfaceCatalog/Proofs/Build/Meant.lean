import InterfaceCatalog.Proofs.Build.Matching
import InterfaceCatalog.Proofs.Catalog.Meaning

namespace InterfaceCatalog

mutual

/-- A type that is stored is stored for everyone who finds more types. -/
theorem TypeSource.StoredBefore.mono {find find' : Lookup}
    (h : ∀ (id : Id .types) (r : Record .types), find .types id = some r → find' .types id = some r)
    {next : Option (Id .types)} : ∀ {source : TypeSource} {id : Id .types},
      source.StoredBefore find next id → source.StoredBefore find' next id
  | .named _ _ _ _, id, hs => by
    obtain ⟨r, hr, hname, hqualifiers, hfree, hnext, hparams⟩ := hs
    exact ⟨r, h id r hr, hname, hqualifiers, hfree, hnext, TypeSource.StoredFrom.mono h hparams⟩

theorem TypeSource.StoredFrom.mono {find find' : Lookup}
    (h : ∀ (id : Id .types) (r : Record .types), find .types id = some r →
      find' .types id = some r) :
    ∀ {sources : List TypeSource} {first : Option (Id .types)},
      TypeSource.StoredFrom find sources first → TypeSource.StoredFrom find' sources first
  | [], _, hs => hs
  | _ :: _, _, hs => by
    obtain ⟨id, next, hfirst, hparam, hparams⟩ := hs
    exact ⟨id, next, hfirst, TypeSource.StoredBefore.mono h hparam,
      TypeSource.StoredFrom.mono h hparams⟩

end

/-- The records of a journal, and no others. -/
def Catalog.own (c : Catalog) (journal : List Change) : Lookup :=
  fun t id => if Change.inserted t id ∈ journal then c.get? id else none

theorem Catalog.own_eq_some_iff {c : Catalog} {journal : List Change} {t : Table} {id : Id t}
    {r : Record t} :
    c.own journal t id = some r ↔ Change.inserted t id ∈ journal ∧ c.get? id = some r := by
  simp [own]

/-- A type has as many parameters as its sort takes, and they are stored by the same build. -/
def Catalog.HasParameters (c : Catalog) (journal : List Change) (r : TypeRecord) : Prop :=
  ∃ params : List TypeSource, params.length = r.builtin.parameterCount ∧
    TypeSource.StoredFrom (c.own journal) params r.firstParameter

/-- A build stores a type that its name stands for. -/
structure Catalog.Means (c : Catalog) (o : Owner) (r : TypeRecord) : Prop where
  file : r.file = o.file
  meaning : c.registry.meanings r.fullName = [r.meaning]
  parameters : c.HasParameters o.journal r

/-- A build may store a record. A type has to be one that its name stands for. -/
def Catalog.Intends (c : Catalog) (o : Owner) : (t : Table) → Record t → Prop
  | .types, r => c.Means o r
  | _, _ => True

theorem Catalog.HasParameters.mono {c c' : Catalog} {journal journal' : List Change}
    {r : TypeRecord} (h : c.HasParameters journal r) (hj : journal ⊆ journal')
    (hkept : ∀ (id : Id .types) (r : Record .types), Change.inserted .types id ∈ journal →
      c.get? id = some r → c'.get? id = some r) : c'.HasParameters journal' r := by
  obtain ⟨params, hlength, hstored⟩ := h
  refine ⟨params, hlength, TypeSource.StoredFrom.mono (fun id r hr => ?_) hstored⟩
  obtain ⟨hid, hget⟩ := Catalog.own_eq_some_iff.mp hr
  exact Catalog.own_eq_some_iff.mpr ⟨hj hid, hkept id r hid hget⟩

/-- Something holds of each type of a build. -/
def Catalog.ForTypes (c : Catalog) (o : Owner) (P : TypeRecord → Prop) : Prop :=
  ∀ (id : Id .types) (r : Record .types), Change.inserted .types id ∈ o.journal →
    c.get? id = some r → P r

/-- The name of each type of a build stands for what the type refers to, and for nothing else. -/
def Catalog.MeansAll (c : Catalog) (o : Owner) : Prop :=
  c.ForTypes o fun r => c.registry.meanings r.fullName = [r.meaning]

/-- A type that is new is stored by the innermost build, as it is meant, and no other one is
changed. When a build ends, its types still are as they are meant. -/
structure Progress.Meant (p q : Progress) : Prop where
  kept : ∀ (id : Id .types) (r r' : Record .types), p.catalog.get? id = some r →
    q.catalog.get? id = some r' → r' = r
  stored : ∀ (id : Id .types) (r : Record .types), p.catalog.get? id = none →
    q.catalog.get? id = some r →
    ∃ fr ∈ q.frames.head?, Change.inserted .types id ∈ fr.journal ∧ q.catalog.Means fr.owner r
  ended : ∀ b ∈ q.catalog.builds, b ∈ p.catalog.builds ∨ q.catalog.MeansAll b.owner

/-- Steps at which types are stored as they are meant. -/
abbrev MeantSteps (base : List Frame) : Progress → Progress → Prop :=
  Relation.ReflTransGen fun p q => Step base p q ∧ p.Meant q

/-- Moves at which types are stored as they are meant. -/
abbrev MeantMoves (base : List Frame) : Progress → Progress → Prop :=
  Relation.ReflTransGen fun p q => Move base p q ∧ p.Meant q

section

variable {base : List Frame} {p q : Progress}

theorem MeantSteps.moves (h : MeantSteps base p q) : MeantMoves base p q := by
  induction h with
  | refl => exact .refl
  | tail _ hs ih => exact ih.tail ⟨.step hs.1, hs.2⟩

theorem MeantSteps.forget (h : MeantSteps base p q) : Steps base p q := by
  induction h with
  | refl => exact .refl
  | tail _ hs ih => exact ih.tail hs.1

theorem MeantMoves.forget (h : MeantMoves base p q) : Moves base p q := by
  induction h with
  | refl => exact .refl
  | tail _ hm ih => exact ih.tail hm.1

/-- What stores no type stores none that is not meant. -/
theorem Progress.meant_of_kept
    (h : ∀ (id : Id .types) (r : Record .types), q.catalog.get? id = some r →
    p.catalog.get? id = some r)
    (hended : ∀ b ∈ q.catalog.builds, b ∈ p.catalog.builds ∨ q.catalog.MeansAll b.owner) :
    p.Meant q where
  kept id r r' hr hr' := Option.some.inj ((h id r' hr').symm.trans hr)
  stored id r hnone hr := by
    rw [h id r hr] at hnone
    cases hnone
  ended := hended

theorem Progress.Meant.lift {fr : Frame} (h : p.Meant q) :
    Progress.Meant ⟨p.catalog, p.frames ++ [fr]⟩ ⟨q.catalog, q.frames ++ [fr]⟩ where
  kept := h.kept
  stored id r hnone hr := by
    obtain ⟨fr', hfr', hstored⟩ := h.stored id r hnone hr
    refine ⟨fr', ?_, hstored⟩
    rw [List.head?_append, Option.mem_def.mp hfr']
    rfl
  ended := h.ended

theorem MeantSteps.lift {fr : Frame} (h : MeantSteps (fr :: base) p q) :
    MeantSteps base ⟨p.catalog, p.frames ++ [fr]⟩ ⟨q.catalog, q.frames ++ [fr]⟩ := by
  induction h with
  | refl => exact .refl
  | tail _ hs ih => exact ih.tail ⟨hs.1.lift, hs.2.lift⟩

theorem MeantMoves.lift {fr : Frame} (h : MeantMoves (fr :: base) p q) :
    MeantMoves base ⟨p.catalog, p.frames ++ [fr]⟩ ⟨q.catalog, q.frames ++ [fr]⟩ := by
  induction h with
  | refl => exact .refl
  | tail _ hm ih => exact ih.tail ⟨hm.1.lift, hm.2.lift⟩

theorem Progress.meant_rollback {c : Catalog} {frames frames' : List Frame}
    (journal : List Change) : Progress.Meant ⟨c, frames⟩ ⟨c.rollback journal, frames'⟩ := by
  refine Progress.meant_of_kept (fun id r hr => ?_) fun b hb =>
    .inl (Catalog.builds_rollback c journal ▸ hb)
  rw [Catalog.get?_rollback] at hr
  split at hr
  · cases hr
  · exact hr

theorem Progress.meant_modify {c : Catalog} {frames : List Frame} {t : Table} (id : Id t)
    {f : Record t → Record t} (hk : ∀ r, Kept t r (f r)) :
    Progress.Meant ⟨c, frames⟩ ⟨c.modify id f, frames⟩ := by
  refine Progress.meant_of_kept (fun other r hr => ?_) fun _ hb => .inl hb
  by_cases hid : Change.inserted .types other = .inserted t id
  · cases hid
    rw [Catalog.get?_modify_self] at hr
    obtain ⟨r', hr', rfl⟩ := Option.map_eq_some_iff.mp hr
    exact hr'.trans (congrArg some (hk r').symm)
  · rwa [Catalog.get?_modify_of_ne c f hid] at hr

theorem Progress.meant_insert {c : Catalog} (wf : c.WellFormed) (fr : Frame)
    {rest : List Frame} {t : Table} (record : Record t) (hm : c.Intends fr.owner t record) :
    Progress.Meant ⟨c, fr :: rest⟩ ⟨c.insert record, fr.note (.inserted t (c.next t)) :: rest⟩ := by
  have live {u : Table} {id : Id u} {r : Record u} (hr : c.get? id = some r) :
      (c.insert record).get? id = some r := by
    rwa [Catalog.get?_insert_of_live wf record (Catalog.live_of_get? hr)]
  refine ⟨fun id r r' hr hr' => Option.some.inj (hr'.symm.trans (live hr)), fun id r hnone hr => ?_,
    fun _ hb => .inl hb⟩
  by_cases hid : Change.inserted .types id = .inserted t (c.next t)
  · cases hid
    rw [Catalog.get?_insert_next wf] at hr
    cases hr
    refine ⟨_, rfl, List.mem_cons_self, hm.file, hm.meaning, ?_⟩
    exact hm.parameters.mono (List.subset_cons_self _ _) fun other r _ hget => live hget
  · rw [Catalog.get?_insert_of_ne wf record hid, hnone] at hr
    cases hr

theorem Step.found (h : Step base p q) {k : Heading} {name : String} {e : Entry k.table}
    (he : (p.catalog.registry.index k).find? name = some e) :
    (q.catalog.registry.index k).find? name = some e := by
  cases h with
  | @register c fr rest k name id free own unlisted =>
    exact (Catalog.Extends.enter c k ⟨name, fr.file, id⟩).find? he
  | _ => exact he

/-- A build under way that has stored a record did so before, if the record was there. -/
theorem Step.exists_frame (h : Step base p q) (hp : p.Sound base) {fr : Frame}
    (hfr : fr ∈ q.frames) {t : Table} {id : Id t} (hid : Change.inserted t id ∈ fr.journal)
    (hlive : p.catalog.Live id) :
    ∃ fr' ∈ p.frames, fr'.file = fr.file ∧ fr'.journal ⊆ fr.journal ∧
      Change.inserted t id ∈ fr'.journal := by
  cases h with
  | @insert c fr' rest u record backed =>
    rcases List.mem_cons.mp hfr with rfl | hfr
    · refine ⟨fr', List.mem_cons_self, rfl, List.subset_cons_self _ _, ?_⟩
      rcases List.mem_cons.mp hid with hnew | hold
      · cases hnew
        simp [Catalog.Live, Catalog.get?_next (Accounted.wellFormed hp)] at hlive
      · exact hold
    · exact ⟨fr, List.mem_cons_of_mem _ hfr, rfl, List.Subset.refl _, hid⟩
  | modify f own found backed => exact ⟨fr, hfr, rfl, List.Subset.refl _, hid⟩
  | @register c fr' rest k name id' free own unlisted =>
    rcases List.mem_cons.mp hfr with rfl | hfr
    · exact ⟨fr', List.mem_cons_self, rfl, List.subset_cons_self _ _,
        by simpa [Frame.note] using hid⟩
    · exact ⟨fr, List.mem_cons_of_mem _ hfr, rfl, List.Subset.refl _, hid⟩
  | begin source imports unparsed idle =>
    rcases List.mem_cons.mp hfr with rfl | hfr
    · cases hid
    · exact ⟨fr, hfr, rfl, List.Subset.refl _, hid⟩
  | finish complete => exact ⟨fr, List.mem_cons_of_mem _ hfr, rfl, List.Subset.refl _, hid⟩

/-- The name of each type of a build still stands for what the type refers to. -/
def Catalog.Recalls (c : Catalog) (o : Owner) : Prop :=
  c.ForTypes o fun r => r.meaning ∈ c.registry.meanings r.fullName

theorem Catalog.Recalls.meansAll {c : Catalog} {o : Owner} (h : c.Recalls o) (ha : c.Announced) :
    c.MeansAll o :=
  fun id r hid hr => ha.meanings_eq (h id r hid hr)

/-- While no build fails, the names of the types of those under way stand for what they did. -/
theorem MeantSteps.recalls (h : MeantSteps base p q) (hp : p.Sound base)
    (hr : ∀ fr ∈ p.frames, p.catalog.Recalls fr.owner) :
    ∀ fr ∈ q.frames, q.catalog.Recalls fr.owner := by
  induction h with
  | refl => exact hr
  | @tail q q' hsteps hstep ih =>
    intro fr hfr id r hid hget
    have hq : q.Sound base := Moves.sound (Steps.moves (MeantSteps.forget hsteps)) hp
    cases hold : q.catalog.get? id with
    | none =>
      obtain ⟨fr', -, -, hmeans⟩ := hstep.2.stored id r hold hget
      rw [hmeans.meaning]
      exact List.mem_singleton_self r.meaning
    | some r' =>
      cases hstep.2.kept id r' r hold hget
      obtain ⟨fr', hfr', -, -, hid'⟩ := hstep.1.exists_frame hq hfr hid (Catalog.live_of_get? hold)
      exact Registry.meanings_mono (fun _ _ => hstep.1.found) (ih fr' hfr' id r hid' hold)

/-- A build that has gone on without a failure ends with its types as they are meant. -/
theorem MeantSteps.finish {c c' : Catalog} {fr fr' : Frame}
    (h : MeantSteps base ⟨c, [fr]⟩ ⟨c', [fr']⟩) (hs : Progress.Sound base ⟨c, [fr]⟩)
    (hbare : fr.journal = []) (hc : fr'.Complete c' base) (ha : c'.Announced) :
    MeantSteps base ⟨c, [fr]⟩ ⟨c'.conclude (fr'.build c' base), []⟩ := by
  have hnone : ∀ o ∈ [fr], c.Recalls o.owner := by
    simp [Catalog.Recalls, Catalog.ForTypes, Frame.owner, hbare]
  refine h.tail ⟨.finish hc, Progress.meant_of_kept (fun _ _ hr => hr) fun b hb => ?_⟩
  refine (List.mem_append.mp hb).imp_right fun hb => ?_
  cases List.mem_singleton.mp hb
  exact (h.recalls hs hnone fr' List.mem_cons_self).meansAll ha

end

end InterfaceCatalog
