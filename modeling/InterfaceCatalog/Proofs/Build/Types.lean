import InterfaceCatalog.Proofs.Build.Meant
import InterfaceCatalog.Proofs.Build.Standing

namespace InterfaceCatalog

open Building

mutual

/-- Each type in a type has as many parameters as its name takes. -/
def TypeSource.Counted : TypeSource → Prop
  | .named name _ _ params => params.length = typeArity name ∧ TypeSource.AllCounted params

def TypeSource.AllCounted : List TypeSource → Prop
  | [] => True
  | param :: params => param.Counted ∧ TypeSource.AllCounted params

end

namespace Building

variable {α β : Type} {s : Site} {d d' : Draft}

theorem exists_of_bind_ok {m : Building α} {f : α → Building β} {b : β}
    (h : (m >>= f) d = .ok b d') : ∃ a d₁, m d = .ok a d₁ ∧ f a d₁ = .ok b d' := by
  change EStateM.bind m f d = .ok b d' at h
  unfold EStateM.bind at h
  cases hm : m d with
  | ok a d₁ =>
    rw [hm] at h
    exact ⟨a, d₁, rfl, h⟩
  | error e d₁ =>
    rw [hm] at h
    cases h

/-- What is found out about a name does not change how many parameters it takes. -/
theorem parameterCount_of_typeMeaning {name : String} {meaning : TypeMeaning}
    (h : typeMeaning s name d = .ok meaning d') :
    meaning.builtin.parameterCount = typeArity name := by
  cases hf : fixedMeaning? name with
  | some fixed =>
    rw [typeMeaning_of_fixed hf] at h
    cases h
    exact (typeArity_of_fixed hf).symm
  | none =>
    rw [typeMeaning_of_not_fixed hf] at h
    rw [typeArity_of_not_fixed hf]
    obtain ⟨registry, d₁, -, h⟩ := exists_of_bind_ok h
    cases ht : registry.typedecl? name with
    | some id =>
      rw [ht] at h
      cases h
      rfl
    | none =>
      rw [ht] at h
      obtain ⟨id, d₂, -, h⟩ := exists_of_bind_ok h
      cases h
      rfl

mutual

theorem counted_of_resolveTypeBefore {next : Option (Id .types)} {id : Id .types} {d d' : Draft} :
    ∀ {source : TypeSource}, resolveTypeBefore s next source d = .ok id d' → source.Counted
  | .named name qualifiers freeFunction params, h => by
    unfold resolveTypeBefore at h
    obtain ⟨meaning, d₁, hm, h⟩ := exists_of_bind_ok h
    dsimp only at h
    split at h
    · obtain ⟨_, _, h, -⟩ := exists_of_bind_ok h
      cases h
    · next hcount =>
      obtain ⟨first, d₃, hfirst, -⟩ := exists_of_bind_ok h
      exact ⟨(not_not.mp hcount).trans (parameterCount_of_typeMeaning hm),
        allCounted_of_resolveParameters hfirst⟩

theorem allCounted_of_resolveParameters {first : Option (Id .types)} {d d' : Draft} :
    ∀ {sources : List TypeSource}, resolveParameters s sources d = .ok first d' →
      TypeSource.AllCounted sources
  | [], _ => trivial
  | param :: params, h => by
    unfold resolveParameters at h
    obtain ⟨next, d₁, hparams, h⟩ := exists_of_bind_ok h
    obtain ⟨id, d₂, hparam, -⟩ := exists_of_bind_ok h
    exact ⟨counted_of_resolveTypeBefore hparam, allCounted_of_resolveParameters hparams⟩

end

/-- A type in which another one has too few or too many parameters is not resolved,
in whatever state. -/
theorem resolveType_eq_error {source : TypeSource} (h : ¬ source.Counted) (s : Site) (d : Draft) :
    ∃ e d', resolveType s source d = .error e d' := by
  cases hr : resolveType s source d with
  | ok id d' => exact absurd (counted_of_resolveTypeBefore hr) h
  | error e d' => exact ⟨e, d', rfl⟩

end Building

namespace Catalog

variable {c : Catalog}

/-- A type belongs to a build: its sort is one that its name allows, and its parameters belong
to the same build. -/
structure OwnsType (c : Catalog) (o : Owner) (r : TypeRecord) : Prop where
  file : r.file = o.file
  sorted : r.IsSorted
  parameters : c.HasParameters o.journal r

theorem Means.ownsType {o : Owner} {r : TypeRecord} (h : c.Means o r) : c.OwnsType o r where
  file := h.file
  sorted := TypeRecord.isSorted_of_mem (h.meaning ▸ List.mem_singleton_self r.meaning)
  parameters := h.parameters

/-- A build knows a type by a name of its own file: the type refers to what the file
declares under it. -/
def Knows (c : Catalog) (o : Owner) (source : FileSource) (r : TypeRecord) : Prop :=
  fixedMeaning? r.fullName = none → ∀ h, (h, r.fullName) ∈ source.typeNames →
    ∃ id, c.Entered o h r.fullName (.listed h) id ∧ h.meaning? id = some r.meaning

end Catalog

theorem FileSource.exists_meaning {source : FileSource} {h : Heading} {name : String}
    (hn : (h, name) ∈ source.typeNames) (id : Id h.table) :
    ∃ meaning, h.meaning? id = some meaning := by
  cases h with
  | structs | enums | aliases | classes => exact ⟨_, rfl⟩
  | constants | globals | declarations => simp [typeNames] at hn

section

variable {p q : Progress}

/-- Who has stored a record did so before, if the record was there. -/
theorem Move.exists_owner (h : Move [] p q) (hp : p.Sound []) {o : Owner}
    (ho : o ∈ q.catalog.owners q.frames) {t : Table} {id : Id t}
    (hid : Change.inserted t id ∈ o.journal) (hlive : p.catalog.Live id) :
    ∃ o' ∈ p.catalog.owners p.frames, o'.file = o.file ∧ o'.journal ⊆ o.journal ∧
      Change.inserted t id ∈ o'.journal := by
  have same {o : Owner} (ho : o ∈ p.catalog.owners p.frames)
      (hid : Change.inserted t id ∈ o.journal) :
      ∃ o' ∈ p.catalog.owners p.frames, o'.file = o.file ∧ o'.journal ⊆ o.journal ∧
        Change.inserted t id ∈ o'.journal := ⟨o, ho, rfl, List.Subset.refl _, hid⟩
  cases h with
  | step h =>
    rcases List.mem_append.mp ho with hframe | hbuild
    · obtain ⟨fr, hfr, rfl⟩ := List.mem_map.mp hframe
      obtain ⟨fr', hfr', hfile, hjournal, hid'⟩ := h.exists_frame hp hfr hid hlive
      exact ⟨fr'.owner, List.mem_append_left _ (List.mem_map_of_mem hfr'), hfile, hjournal, hid'⟩
    · cases h with
      | @finish c fr rest complete =>
        obtain ⟨b, hb, rfl⟩ := List.mem_map.mp hbuild
        rcases List.mem_append.mp hb with hb | hb
        · exact same (owner_mem_owners hb _) hid
        · cases List.mem_singleton.mp hb
          exact same (o := fr.owner) List.mem_cons_self hid
      | _ => exact same (List.mem_append_right _ hbuild) hid
  | @abandon c fr rest =>
    rw [Catalog.owners, Catalog.builds_rollback] at ho
    exact same (List.mem_cons_of_mem fr.owner ho) hid

/-- A move keeps what each build owns. A type that is new is as it is meant. -/
theorem Progress.Meant.ownsType (hm : p.Meant q) (h : Move [] p q) (hp : p.Sound [])
    (hown : ∀ o ∈ p.catalog.owners p.frames, p.catalog.ForTypes o (p.catalog.OwnsType o)) :
    ∀ o ∈ q.catalog.owners q.frames, q.catalog.ForTypes o (q.catalog.OwnsType o) := by
  intro o ho id r hid hr
  have hq : Accounted q.catalog (q.catalog.owners q.frames) := by
    simpa [Progress.Sound] using h.sound hp
  cases hold : p.catalog.get? id with
  | none =>
    obtain ⟨fr, hfr, hid', hmeans⟩ := hm.stored id r hold hr
    have hmem : fr.owner ∈ q.catalog.owners q.frames :=
      List.mem_append_left _ (List.mem_map_of_mem (List.mem_of_mem_head? hfr))
    rw [hq.owner_eq ho hmem hid hid']
    exact hmeans.ownsType
  | some r' =>
    cases hm.kept id r' r hold hr
    obtain ⟨o', ho', hfile, hjournal, hid'⟩ := h.exists_owner hp ho hid (Catalog.live_of_get? hold)
    have howned := hown o' ho' id r hid' hold
    refine ⟨howned.file.trans hfile, howned.sorted, howned.parameters.mono hjournal
      fun id₂ r₂ hid₂ hr₂ => ?_⟩
    obtain ⟨r₃, hr₃⟩ := Catalog.exists_of_live (hq.live ho (hjournal hid₂))
    rw [hr₃, hm.kept id₂ r₂ r₃ hr₂ hr₃]

/-- A move keeps what each parsed file knows. When a build ends, the names of its types stand for
nothing else than what they refer to, so that this is what the file has entered under them. -/
theorem Progress.Meant.knows (hm : p.Meant q) (h : Move [] p q) (hp : p.Sound [])
    (hstands : ∀ b ∈ q.catalog.builds, b.Stands q.catalog)
    (hknows : ∀ b ∈ p.catalog.builds,
      p.catalog.ForTypes b.owner (p.catalog.Knows b.owner b.source)) :
    ∀ b ∈ q.catalog.builds, q.catalog.ForTypes b.owner (q.catalog.Knows b.owner b.source) := by
  intro b hb id r hid hr hfixed k hk
  rcases hm.ended b hb with hold | hmeans
  · rw [h.get?_of_owned hp (owner_mem_owners hold _) hid] at hr
    obtain ⟨target, hentered, htarget⟩ := hknows b hold id r hid hr hfixed k hk
    exact ⟨target, h.entered hp hold hentered, htarget⟩
  · obtain ⟨target, kind, _, _, _, _, hentered, -⟩ :=
      (hstands b hb).declares (k, r.fullName) (List.mem_append_left _ hk)
    obtain ⟨meaning, hmeaning⟩ := FileSource.exists_meaning hk target
    have hmem := Registry.mem_meanings_of_entry hfixed hentered.found hmeaning
    rw [hmeans id r hid hr, List.mem_singleton] at hmem
    exact ⟨target, hentered, hmem ▸ hmeaning⟩

/-- What is known of the types of each build in a session. -/
theorem MeantMoves.types (h : MeantMoves [] ⟨{}, []⟩ q) :
    (∀ o ∈ q.catalog.owners q.frames, q.catalog.ForTypes o (q.catalog.OwnsType o)) ∧
    ∀ b ∈ q.catalog.builds, q.catalog.ForTypes b.owner (q.catalog.Knows b.owner b.source) := by
  induction h with
  | refl => exact ⟨by simp [Catalog.owners], by simp⟩
  | @tail q q' hmoves hmove ih =>
    have hleads : Moves [] ⟨{}, []⟩ q := MeantMoves.forget hmoves
    have hq : q.Sound [] := Moves.sound hleads Accounted.empty
    exact ⟨hmove.2.ownsType hmove.1 hq ih.1, hmove.2.knows hmove.1 hq
      (Moves.stands (hleads.tail hmove.1) Accounted.empty (by simp)) ih.2⟩

end

end InterfaceCatalog
