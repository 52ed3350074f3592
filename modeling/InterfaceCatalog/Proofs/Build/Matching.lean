import InterfaceCatalog.Proofs.Arena.History
import InterfaceCatalog.Proofs.Build.Extension
import InterfaceCatalog.Query.Member

namespace InterfaceCatalog

/-- A property can be read or written. -/
def FunctionRecord.IsUsable (f : FunctionRecord) : Prop :=
  f.isProperty → f.isReadable ∨ f.isWritable

/-- An implement covers no accessor of a method, and of a property those that it has. -/
structure ImplementRecord.Fits (i : ImplementRecord) (f : FunctionRecord) : Prop where
  method : f.kind = .method → i.coversGetter = false ∧ i.coversSetter = false
  covered : f.isProperty → i.coversGetter ∨ i.coversSetter
  readable : f.isProperty → i.coversGetter → f.isReadable
  writable : f.isProperty → i.coversSetter → f.isWritable
  getter : f.isProperty → i.covers .getter = false → i.flags .getter = {}
  setter : f.isProperty → i.covers .setter = false → i.flags .setter = {}

theorem ImplementRecord.fits_method {i : ImplementRecord} {f : FunctionRecord}
    (hf : f.kind = .method) (hg : i.coversGetter = false) (hs : i.coversSetter = false) :
    i.Fits f := by
  have hp : f.isProperty = false := by simp [FunctionRecord.isProperty, hf]
  constructor <;> simp [hp, hg, hs]

/-- An implement may cover all that a property has. -/
theorem ImplementRecord.fits_property {i : ImplementRecord} {f : FunctionRecord}
    (hf : f.kind ≠ .method) (hu : f.IsUsable) (hg : i.coversGetter = f.isReadable)
    (hs : i.coversSetter = f.isWritable) (hgetter : f.isReadable = false → i.getter = {})
    (hsetter : f.isWritable = false → i.setter = {}) : i.Fits f where
  method h := absurd h hf
  covered hp := by rw [hg, hs]; exact hu hp
  readable _ h := hg ▸ h
  writable _ h := hs ▸ h
  getter _ h := hgetter (hg.symm.trans h)
  setter _ h := hsetter (hs.symm.trans h)

/-- What a record keeps when it is changed. A function of a class only gets its implement, and a
type is not changed at all. -/
def Kept : (t : Table) → Record t → Record t → Prop
  | .classes, r, r' => r'.fullName = r.fullName
  | .functions, f, f' => f' = { f with implement := f'.implement }
  | .types, r, r' => r' = r
  | _, _, _ => True

theorem Kept.refl : {t : Table} → (r : Record t) → Kept t r r
  | .classes, _ | .functions, _ | .types, _ => rfl
  | .parts, _ | .constructors, _ | .events, _ | .parameters, _ | .implements, _ | .typedecls, _
  | .structFields, _ | .enumFields, _ | .expressions, _ | .variables, _ | .declarations, _
  | .documentation, _ => trivial

namespace Catalog

/-- How often a slot was freed, as long as its generation has not started again. -/
def age (c : Catalog) (t : Table) (i : Nat) : Nat :=
  (c.store.arena t).age i

/-- A handle that was issued: it finds a record, or its slot was freed since. -/
def Issued (c : Catalog) {t : Table} (id : Id t) : Prop :=
  c.Live id ∨ id.handle.generation.toNat < c.age t id.handle.index

/-- A member of a class that goes by a full name. -/
structure Bears (c : Catalog) (owner : Id .classes) (fullName : String) (f : FunctionRecord) :
    Prop where
  classId_eq : f.classId = some owner
  fullName_eq : ∀ r : ClassRecord, c.get? owner = some r → fullName = r.fullName ++ "." ++ f.name

/-- What a record says of the functions that it refers to is the case. -/
def Fits (c : Catalog) : (t : Table) → Id t → Record t → Prop
  | .classes, id, r =>
    ∀ function ∈ r.functions, ∀ f : FunctionRecord, c.get? function = some f → f.classId = some id
  | .functions, _, f => f.IsUsable
  | .implements, _, i =>
    ∀ f : FunctionRecord, c.get? i.function = some f → c.Bears i.classId i.fullName f ∧ i.Fits f
  | .constructors, _, k => ∀ f : FunctionRecord, c.get? k.function = some f →
      c.Bears k.classId k.fullName f
  | _, _, _ => True

/-- The functions of a build are those of its own classes. -/
def Kin (c : Catalog) (journal : List Change) : Prop :=
  ∀ id : Id .functions, Change.inserted .functions id ∈ journal →
    ∃ f : FunctionRecord, c.get? id = some f ∧
    ∀ owner ∈ f.classId, Change.inserted .classes owner ∈ journal

structure Matched (c : Catalog) : Prop where
  issued : ∀ {t : Table} (id : Id t) (r : Record t), c.get? id = some r →
    ∀ ref ∈ references t r, c.Issued ref.id
  fits : ∀ {t : Table} (id : Id t) (r : Record t), c.get? id = some r → c.Fits t id r
  kin : ∀ b ∈ c.builds, c.Kin b.journal

variable {c c' : Catalog} {t : Table}

theorem age_setArena {a : Arena (Record t)} (ha : ∀ i, a.age i = c.age t i) (u : Table) (i : Nat) :
    ({ c with store := c.store.setArena t a } : Catalog).age u i = c.age u i := by
  by_cases htu : t = u
  · subst htu
    simpa [age] using ha i
  · simp only [age, Store.arena_setArena_of_ne c.store a htu]

theorem age_insert (c : Catalog) (record : Record t) (u : Table) (i : Nat) :
    (c.insert record).age u i = c.age u i :=
  age_setArena (Arena.age_insert _ record) u i

theorem age_modify (c : Catalog) (id : Id t) (f : Record t → Record t) (u : Table) (i : Nat) :
    (c.modify id f).age u i = c.age u i :=
  age_setArena (Arena.age_modify _ id.handle f) u i

/-- The next handle was not issued before. -/
theorem get?_insert_of_issued (wf : c.WellFormed) (record : Record t) {u : Table} {id : Id u}
    (h : c.Issued id) : (c.insert record).get? id = c.get? id := by
  refine get?_insert_of_ne wf record fun he => ?_
  cases he
  rcases h with hl | hlt
  · simp [Live, get?_next wf] at hl
  · exact Nat.lt_irrefl _ ((Arena.age_next (wf t)).symm ▸ hlt)

theorem Issued.mono {u : Table} {id : Id u} (h : c.Issued id) (hlive : c.Live id → c'.Live id)
    (hage : c'.age u id.handle.index = c.age u id.handle.index) : c'.Issued id :=
  h.imp hlive (hage.symm ▸ ·)

/-- A record that matches goes on to do so if its references find the same as before. -/
theorem Fits.congr {id : Id t} {r : Record t} (h : c.Fits t id r)
    (hsame : ∀ ref ∈ references t r, c'.get? ref.id = c.get? ref.id) : c'.Fits t id r := by
  have bears {owner : Id .classes} {fullName : String} {f : FunctionRecord}
      (hsame : c'.get? owner = c.get? owner) (hf : c.Bears owner fullName f) :
          c'.Bears owner fullName f :=
    ⟨hf.classId_eq, fun r hr => hf.fullName_eq r (hsame ▸ hr)⟩
  cases t with
  | classes =>
    intro function hmem f hf
    have href : (⟨.functions, function⟩ : Reference) ∈ references .classes r := by
      simp [references, Reference.ofList, hmem]
    exact h function hmem f ((hsame _ href).symm.trans hf)
  | functions => exact h
  | implements =>
    intro f hf
    have hfits := h f ((hsame ⟨_, r.function⟩ (by simp [references])).symm.trans hf)
    exact hfits.imp_left (bears (hsame ⟨_, r.classId⟩ (by simp [references])))
  | constructors =>
    intro f hf
    have hfits := h f ((hsame ⟨_, r.function⟩ (by simp [references])).symm.trans hf)
    exact bears (hsame ⟨_, r.classId⟩ (by simp [references])) hfits
  | _ => trivial

/-- Every record comes from an earlier one under the same handle, which keeps what
others say of it. -/
def Precedes (c c' : Catalog) : Prop :=
  ∀ {t : Table} (id : Id t) (r' : Record t), c'.get? id = some r' →
    ∃ r, c.get? id = some r ∧ Kept t r r'

theorem Fits.of_precedes {id : Id t} {r : Record t} (h : c.Fits t id r) (hc : c.Precedes c') :
    c'.Fits t id r := by
  have bears {owner : Id .classes} {fullName : String} {f f' : FunctionRecord}
    (hkept : Kept .functions f f')
      (hf : c.Bears owner fullName f) : c'.Bears owner fullName f' := by
    rw [show f' = _ from hkept]
    refine ⟨hf.classId_eq, fun r' hr' => ?_⟩
    obtain ⟨r, hr, hname⟩ := hc owner r' hr'
    rw [show r'.fullName = r.fullName from hname]
    exact hf.fullName_eq r hr
  cases t with
  | classes =>
    intro function hmem f' hf'
    obtain ⟨f, hf, hkept⟩ := hc function f' hf'
    rw [show f' = _ from hkept]
    exact h function hmem f hf
  | functions => exact h
  | implements =>
    intro f' hf'
    obtain ⟨f, hf, hkept⟩ := hc r.function f' hf'
    refine ⟨bears hkept (h f hf).1, ?_⟩
    rw [show f' = _ from hkept]
    obtain ⟨method, covered, readable, writable, getter, setter⟩ := (h f hf).2
    exact ⟨method, covered, readable, writable, getter, setter⟩
  | constructors =>
    intro f' hf'
    obtain ⟨f, hf, hkept⟩ := hc r.function f' hf'
    exact bears hkept (h f hf)
  | _ => trivial

theorem Kin.of_kept {journal : List Change} (h : c.Kin journal)
    (hkept : ∀ (id : Id .functions) (f : FunctionRecord), Change.inserted .functions id ∈ journal →
      c.get? id = some f → ∃ f' : FunctionRecord, c'.get? id = some f' ∧ f'.classId = f.classId) :
    c'.Kin journal := by
  intro id hid
  obtain ⟨f, hf, howner⟩ := h id hid
  obtain ⟨f', hf', heq⟩ := hkept id f hid hf
  exact ⟨f', hf', heq ▸ howner⟩

theorem Kin.extends {journal : List Change} (h : c.Kin journal) (he : c.Extends c') :
    c'.Kin journal :=
  h.of_kept fun id f _ hf => ⟨f, he.kept id f hf, rfl⟩

theorem Kin.insert {journal : List Change} (h : c.Kin journal) (wf : c.WellFormed)
    (record : Record t) : (c.insert record).Kin journal :=
  h.of_kept fun _ f _ hf => ⟨f, (get?_insert_of_live wf record (live_of_get? hf)).trans hf, rfl⟩

theorem Kin.modify {journal : List Change} (h : c.Kin journal) {id : Id t} {f : Record t → Record t}
    (hkept : ∀ r, Kept t r (f r)) : (c.modify id f).Kin journal := by
  refine h.of_kept fun other g _ hg => ?_
  by_cases hid : Change.inserted .functions other = .inserted t id
  · cases hid
    refine ⟨f g, by simp [get?_modify_self, hg], ?_⟩
    rw [show f g = _ from hkept g]
  · exact ⟨g, (get?_modify_of_ne c f hid).trans hg, rfl⟩

namespace Matched

theorem empty : ({} : Catalog).Matched where
  issued _ _ hr := by simp [get?_empty] at hr
  fits _ _ hr := by simp [get?_empty] at hr
  kin b hb := by simp at hb

/-- The old records do not refer to the new one. -/
theorem insert (h : c.Matched) (wf : c.WellFormed) {record : Record t}
    (hlive : ∀ ref ∈ references t record, c.Live ref.id) (hfits : c.Fits t (c.next t) record) :
    (c.insert record).Matched := by
  -- whatever a record of the new catalog refers to was issued in the old one
  have old {u : Table} {id : Id u} {r : Record u} (hr : (c.insert record).get? id = some r) :
      c.Fits u id r ∧ ∀ ref ∈ references u r, c.Issued ref.id := by
    by_cases hid : Change.inserted u id = .inserted t (c.next t)
    · cases hid
      rw [get?_insert_next wf] at hr
      cases hr
      exact ⟨hfits, fun ref href => .inl (hlive ref href)⟩
    · rw [get?_insert_of_ne wf record hid] at hr
      exact ⟨h.fits id r hr, h.issued id r hr⟩
  refine ⟨fun id r hr ref href => ?_, fun id r hr => ?_, fun b hb => (h.kin b hb).insert wf record⟩
  · have hissued := (old hr).2 ref href
    refine hissued.mono (fun hl => ?_) (age_insert c record _ _)
    rwa [Live, get?_insert_of_issued wf record hissued]
  · exact (old hr).1.congr fun ref href => get?_insert_of_issued wf record ((old hr).2 ref href)

theorem precedes_modify {id : Id t} {f : Record t → Record t} (hkept : ∀ r, Kept t r (f r)) :
    c.Precedes (c.modify id f) := by
  intro u other r' hr'
  by_cases hid : Change.inserted u other = .inserted t id
  · cases hid
    rw [get?_modify_self] at hr'
    obtain ⟨r, hr, rfl⟩ := Option.map_eq_some_iff.mp hr'
    exact ⟨r, hr, hkept r⟩
  · rw [get?_modify_of_ne c f hid] at hr'
    exact ⟨r', hr', .refl r'⟩

theorem modify (h : c.Matched) {id : Id t} {f : Record t → Record t} {r : Record t}
    (hr : c.get? id = some r)
    (hrefs : ∀ ref ∈ references t (f r), ref ∈ references t r ∨ c.Live ref.id)
    (hfits : c.Fits t id (f r)) (hkept : ∀ r, Kept t r (f r)) : (c.modify id f).Matched := by
  have old {u : Table} {other : Id u} {r' : Record u} (hr' : (c.modify id f).get? other = some r') :
      c.Fits u other r' ∧ ∀ ref ∈ references u r', c.Issued ref.id := by
    by_cases hid : Change.inserted u other = .inserted t id
    · cases hid
      rw [get?_modify_self, hr, Option.map_some, Option.some.injEq] at hr'
      subst hr'
      exact ⟨hfits, fun ref href => (hrefs ref href).elim (h.issued id r hr ref) .inl⟩
    · rw [get?_modify_of_ne c f hid] at hr'
      exact ⟨h.fits other r' hr', h.issued other r' hr'⟩
  refine ⟨fun other r' hr' ref href => ?_, fun other r' hr' => ?_, fun b hb =>
    (h.kin b hb).modify hkept⟩
  · exact ((old hr').2 ref href).mono (live_modify_iff c f).mpr (age_modify c id f _ _)
  · exact (old hr').1.of_precedes (precedes_modify hkept)

/-- Entries and builds are not looked at, but for the functions of a build. -/
theorem of_store_eq (h : c.Matched) (hstore : c'.store = c.store)
    (hkin : ∀ b ∈ c'.builds, c'.Kin b.journal) : c'.Matched := by
  have hget : ∀ {u : Table} (id : Id u), c'.get? id = c.get? id :=
    fun id => by rw [get?, get?, hstore]
  refine ⟨fun id r hr ref href => ?_, fun id r hr => ?_, hkin⟩
  · refine (h.issued id r ((hget id).symm.trans hr) ref href).mono
      (fun hl => ?_) (by rw [age, age, hstore])
    rwa [Live, hget]
  · exact (h.fits id r ((hget id).symm.trans hr)).congr fun ref _ => hget ref.id

theorem enter (h : c.Matched) (k : Heading) (e : Entry k.table) : (c.enter k e).Matched :=
  h.of_store_eq rfl h.kin

theorem conclude (h : c.Matched) {b : Build} (hb : c.Kin b.journal) : (c.conclude b).Matched := by
  refine h.of_store_eq rfl fun b' hb' => ?_
  rcases List.mem_append.mp hb' with hold | hnew
  · exact h.kin b' hold
  · cases List.mem_singleton.mp hnew
    exact hb

/-- A journal that is taken back leaves the records of the others. -/
theorem rollback (h : c.Matched) {o : Owner} {owners : List Owner} (ha : Accounted c (o :: owners))
    (hbuilds : ∀ b ∈ c.builds, b.owner ∈ owners)
    (hissued : ∀ {u : Table} {id : Id u}, c.Issued id → (c.rollback o.journal).Issued id) :
    (c.rollback o.journal).Matched := by
  have hget {u : Table} {id : Id u} {r : Record u} (hr : (c.rollback o.journal).get? id = some r) :
      c.get? id = some r := by
    rw [get?_rollback] at hr
    split at hr
    · cases hr
    · exact hr
  refine ⟨fun id r hr ref href => hissued (h.issued id r (hget hr) ref href), fun id r hr => ?_,
    fun b hb => ?_⟩
  · exact (h.fits id r (hget hr)).of_precedes fun other r' hr' => ⟨r', hget hr', .refl r'⟩
  · rw [builds_rollback] at hb
    refine (h.kin b hb).of_kept fun id f hid hf => ⟨f, ?_, rfl⟩
    have hout : Change.inserted .functions id ∉ o.journal := fun hj =>
      ha.owner_unique hj (hbuilds b hb) hid
    rw [get?_rollback, if_neg hout, hf]

end Matched

end Catalog

end InterfaceCatalog
