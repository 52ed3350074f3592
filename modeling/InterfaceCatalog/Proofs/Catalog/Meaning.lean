import InterfaceCatalog.Catalog.Resolve
import InterfaceCatalog.Proofs.Catalog.Stored

namespace InterfaceCatalog

open Building

/-- The sort of a type, and what it refers to. -/
def TypeRecord.meaning (r : TypeRecord) : TypeMeaning :=
  ⟨r.kind, r.builtin, r.typedecl, r.classId⟩

/-- What a name stands for whatever is entered under it. -/
def fixedMeaning? (name : String) : Option TypeMeaning :=
  if name = "void" then some ⟨.void, .void, none, none⟩
  else if name = undefinedTypeName then some ⟨.undefined, .invalid, none, none⟩
  else (Builtin.ofName? name).map fun builtin => ⟨.regular, builtin, none, none⟩

/-- What a type means whose name is entered under a heading. -/
def Heading.meaning? : (h : Heading) → Id h.table → Option TypeMeaning
  | .structs, id | .enums, id | .aliases, id => some ⟨.regular, .invalid, some id, none⟩
  | .classes, id => some ⟨.classType, .invalid, none, some id⟩
  | .constants, _ | .globals, _ | .declarations, _ => none

/-- The headings of what a type may be, those that go before others first. -/
def typeHeadings : List Heading :=
  [.structs, .enums, .aliases, .classes]

namespace Registry

/-- What is entered under a heading for a name, as the meaning of a type. -/
def enteredMeanings (r : Registry) (name : String) (h : Heading) : List TypeMeaning :=
  ((r.index h).find? name).toList.filterMap fun e => h.meaning? e.id

/-- All that a name stands for as a type. -/
def meanings (r : Registry) (name : String) : List TypeMeaning :=
  match fixedMeaning? name with
  | some meaning => [meaning]
  | none => typeHeadings.flatMap (r.enteredMeanings name)

theorem mem_enteredMeanings {r : Registry} {name : String} {h : Heading} {meaning : TypeMeaning} :
    meaning ∈ r.enteredMeanings name h ↔
      ∃ e, (r.index h).find? name = some e ∧ h.meaning? e.id = some meaning := by
  simp [enteredMeanings]

theorem meanings_of_fixed {r : Registry} {name : String} {meaning : TypeMeaning}
    (h : fixedMeaning? name = some meaning) : r.meanings name = [meaning] := by
  rw [meanings, h]

theorem mem_meanings_of_fixed {r : Registry} {name : String} {meaning : TypeMeaning}
    (h : fixedMeaning? name = some meaning) : meaning ∈ r.meanings name := by
  rw [meanings_of_fixed h]
  exact List.mem_singleton_self meaning

theorem meanings_of_not_fixed {r : Registry} {name : String} (h : fixedMeaning? name = none) :
    r.meanings name = typeHeadings.flatMap (r.enteredMeanings name) := by
  rw [meanings, h]

theorem mem_typeHeadings {h : Heading} {id : Id h.table} {meaning : TypeMeaning}
    (hm : h.meaning? id = some meaning) : h ∈ typeHeadings := by
  cases h with
  | structs | enums | aliases | classes => simp [typeHeadings]
  | constants | globals | declarations => cases hm

theorem mem_meanings_of_entry {r : Registry} {name : String} (hf : fixedMeaning? name = none)
    {h : Heading} {e : Entry h.table} (he : (r.index h).find? name = some e) {meaning : TypeMeaning}
    (hm : h.meaning? e.id = some meaning) : meaning ∈ r.meanings name := by
  rw [meanings_of_not_fixed hf]
  exact List.mem_flatMap.mpr ⟨h, mem_typeHeadings hm, mem_enteredMeanings.mpr ⟨e, he, hm⟩⟩

theorem exists_entry_of_mem_meanings {r : Registry} {name : String} (hf : fixedMeaning? name = none)
    {meaning : TypeMeaning} (h : meaning ∈ r.meanings name) :
    ∃ (k : Heading) (e : Entry k.table), (r.index k).find? name = some e ∧
      k.meaning? e.id = some meaning := by
  rw [meanings_of_not_fixed hf] at h
  obtain ⟨k, -, hk⟩ := List.mem_flatMap.mp h
  exact ⟨k, mem_enteredMeanings.mp hk⟩

/-- A meaning is not lost while no entry is. -/
theorem meanings_mono {r r' : Registry} {name : String}
    (hfound : ∀ (h : Heading) (e : Entry h.table), (r.index h).find? name = some e →
      (r'.index h).find? name = some e)
    {meaning : TypeMeaning} (h : meaning ∈ r.meanings name) : meaning ∈ r'.meanings name := by
  cases hf : fixedMeaning? name with
  | some fixed => rwa [meanings_of_fixed hf] at h ⊢
  | none =>
    obtain ⟨k, e, he, hm⟩ := exists_entry_of_mem_meanings hf h
    exact mem_meanings_of_entry hf (hfound k e he) hm

/-- A declared type means its entry. -/
theorem mem_meanings_of_typedecl? {r : Registry} {name : String} (hf : fixedMeaning? name = none)
    {id : Id .typedecls} (h : r.typedecl? name = some id) :
    (⟨.regular, .invalid, some id, none⟩ : TypeMeaning) ∈ r.meanings name := by
  obtain ⟨e, he, rfl⟩ := Option.map_eq_some_iff.mp h
  rcases Option.or_eq_some_iff.mp he with he | ⟨-, he⟩
  · rcases Option.or_eq_some_iff.mp he with he | ⟨-, he⟩
    · exact mem_meanings_of_entry (h := .structs) hf he rfl
    · exact mem_meanings_of_entry (h := .enums) hf he rfl
  · exact mem_meanings_of_entry (h := .aliases) hf he rfl

end Registry

/-- The heading under which a declared type is entered. -/
def DeclarationKind.typeHeading? : DeclarationKind → Option Heading
  | .className => some .classes
  | .structName => some .structs
  | .enumName => some .enums
  | .aliasName => some .aliases
  | _ => none

theorem Heading.typeHeading?_of_declarationKind {h : Heading} {id : Id h.table}
    {meaning : TypeMeaning} (hm : h.meaning? id = some meaning) {kind : DeclarationKind}
    (hk : h.declarationKind? = some kind) : kind.typeHeading? = some h := by
  cases h with
  | structs | enums | aliases | classes =>
    cases hk
    rfl
  | constants | globals | declarations => cases hm

theorem Heading.ne_declarations {h : Heading} {id : Id h.table} {meaning : TypeMeaning}
    (hm : h.meaning? id = some meaning) : h ≠ .declarations := by
  rintro rfl
  cases hm

/-- A type refers to something exactly if its name does not tell its sort. -/
def TypeRecord.IsSorted (r : TypeRecord) : Prop :=
  match fixedMeaning? r.fullName with
  | some meaning => r.meaning = meaning
  | none => (∃ id, r.meaning = ⟨.regular, .invalid, some id, none⟩) ∨
      ∃ id, r.meaning = ⟨.classType, .invalid, none, some id⟩

theorem TypeRecord.isSorted_of_mem {r : TypeRecord} {registry : Registry}
    (h : r.meaning ∈ registry.meanings r.fullName) : r.IsSorted := by
  unfold IsSorted
  cases hf : fixedMeaning? r.fullName with
  | some meaning =>
    rw [Registry.meanings_of_fixed hf] at h
    exact List.mem_singleton.mp h
  | none =>
    obtain ⟨k, e, -, hm⟩ := Registry.exists_entry_of_mem_meanings hf h
    cases k with
    | structs | enums | aliases => exact .inl ⟨e.id, (Option.some.inj hm).symm⟩
    | classes => exact .inr ⟨e.id, (Option.some.inj hm).symm⟩
    | constants | globals | declarations => cases hm

/-- What a fixed name stands for: nothing, something undefined, or something that is builtin. -/
theorem fixedMeaning?_eq_some {name : String} {meaning : TypeMeaning}
    (h : fixedMeaning? name = some meaning) :
    meaning = ⟨.void, .void, none, none⟩ ∨ meaning = ⟨.undefined, .invalid, none, none⟩ ∨
      ∃ builtin, meaning = ⟨.regular, builtin, none, none⟩ := by
  unfold fixedMeaning? at h
  split at h
  · exact .inl (Option.some.inj h).symm
  split at h
  · exact .inr (.inl (Option.some.inj h).symm)
  · obtain ⟨builtin, -, rfl⟩ := Option.map_eq_some_iff.mp h
    exact .inr (.inr ⟨builtin, rfl⟩)

namespace Building

variable {s : Site} {name : String}

theorem typeMeaning_of_fixed {meaning : TypeMeaning} (h : fixedMeaning? name = some meaning) :
    typeMeaning s name = pure meaning := by
  unfold fixedMeaning? at h
  unfold typeMeaning
  split at h
  · next hvoid =>
    rw [if_pos hvoid, Option.some.inj h]
  split at h
  · next hvoid hundefined =>
    rw [if_neg hvoid, if_pos hundefined, Option.some.inj h]
  · next hvoid hundefined =>
    obtain ⟨builtin, hb, rfl⟩ := Option.map_eq_some_iff.mp h
    rw [if_neg hvoid, if_neg hundefined, hb]

/-- All other names are looked up, as those of declared types first. -/
theorem typeMeaning_of_not_fixed (h : fixedMeaning? name = none) :
    typeMeaning s name = registry >>= fun r => (r.typedecl? name).elim
      (resolveTypeClass s name >>= fun id => pure ⟨.classType, .invalid, none, some id⟩)
      fun id => pure ⟨.regular, .invalid, some id, none⟩ := by
  unfold fixedMeaning? at h
  split at h
  · cases h
  split at h
  · cases h
  · next hvoid hundefined =>
    rw [Option.map_eq_none_iff] at h
    rw [typeMeaning, if_neg hvoid, if_neg hundefined, h]
    dsimp only
    congr 1
    funext r
    cases r.typedecl? name <;> rfl

end Building

/-- How many parameters a type of some name takes. -/
def typeArity (name : String) : Nat :=
  match fixedMeaning? name with
  | some meaning => meaning.builtin.parameterCount
  | none => 0

theorem typeArity_of_fixed {name : String} {meaning : TypeMeaning}
    (h : fixedMeaning? name = some meaning) : typeArity name = meaning.builtin.parameterCount := by
  rw [typeArity, h]

theorem typeArity_of_not_fixed {name : String} (h : fixedMeaning? name = none) :
    typeArity name = 0 := by
  rw [typeArity, h]

namespace TypeRecord.IsSorted

variable {r : TypeRecord}

theorem builtin_eq_invalid (h : r.IsSorted) (hf : fixedMeaning? r.fullName = none) :
    r.builtin = .invalid := by
  rw [IsSorted, hf] at h
  rcases h with ⟨id, h⟩ | ⟨id, h⟩
  · exact congrArg TypeMeaning.builtin h
  · exact congrArg TypeMeaning.builtin h

theorem parameterCount_eq (h : r.IsSorted) : r.builtin.parameterCount = typeArity r.fullName := by
  cases hf : fixedMeaning? r.fullName with
  | some meaning =>
    rw [IsSorted, hf] at h
    rw [typeArity_of_fixed hf, ← h]
    rfl
  | none =>
    rw [typeArity_of_not_fixed hf, h.builtin_eq_invalid hf]
    rfl

/-- What is not builtin takes no parameters. -/
theorem parameterCount_eq_zero (h : r.IsSorted) (hr : r.kind ≠ .regular ∨ r.typedecl ≠ none) :
    r.builtin.parameterCount = 0 := by
  cases hf : fixedMeaning? r.fullName with
  | none =>
    rw [h.builtin_eq_invalid hf]
    rfl
  | some meaning =>
    rw [IsSorted, hf] at h
    have hbuiltin : r.builtin = meaning.builtin := congrArg TypeMeaning.builtin h
    have hkind : r.kind = meaning.kind := congrArg TypeMeaning.kind h
    have htypedecl : r.typedecl = meaning.typedecl := congrArg TypeMeaning.typedecl h
    rw [hbuiltin]
    rw [hkind, htypedecl] at hr
    obtain rfl | rfl | ⟨builtin, rfl⟩ := fixedMeaning?_eq_some hf
    · rfl
    · rfl
    · rcases hr with hr | hr <;> exact absurd rfl hr

end TypeRecord.IsSorted

namespace Catalog

/-- The declaration of the name of an entry leads to its record. -/
def Announces (c : Catalog) (h : Heading) (e : Entry h.table) : Prop :=
  ∃ e' kind target, (c.registry.index .declarations).find? e.name = some e' ∧ e'.file = e.file ∧
    h.declarationKind? = some kind ∧ h.target? e.id = some target ∧
    c.label? e'.id = some ⟨e.name, e.file, .declaration kind target⟩

/-- Each name that is entered is declared. -/
def Announced (c : Catalog) : Prop :=
  ∀ h, h ≠ .declarations → ∀ e ∈ c.entries h, c.Announces h e

/-- Each name that another file has entered is declared. -/
def AnnouncedBeside (c : Catalog) (file : String) : Prop :=
  ∀ h, h ≠ .declarations → ∀ e ∈ c.entries h, e.file ≠ file → c.Announces h e

variable {c c' : Catalog}

theorem announced_empty : ({} : Catalog).Announced := by
  simp [Announced, entries_empty]

theorem Announced.beside (ha : c.Announced) (file : String) : c.AnnouncedBeside file :=
  fun h hh e he _ => ha h hh e he

theorem Announces.mono {h : Heading} {e : Entry h.table} (ha : c.Announces h e)
    (hfound : ∀ e', (c.registry.index .declarations).find? e.name = some e' →
      (c'.registry.index .declarations).find? e.name = some e')
    (hlabel : ∀ (id : Id .declarations) l, c.label? id = some l → c'.label? id = some l) :
    c'.Announces h e := by
  obtain ⟨e', kind, target, hf, hfile, hkind, htarget, hl⟩ := ha
  exact ⟨e', kind, target, hfound e' hf, hfile, hkind, htarget, hlabel e'.id _ hl⟩

/-- Names stay declared as long as each new one is. -/
theorem Announced.mono (ha : c.Announced)
    (hentries : ∀ h, h ≠ .declarations → ∀ e ∈ c'.entries h, e ∈ c.entries h ∨ c'.Announces h e)
    (hfound : ∀ {h : Heading} {name : String} {e : Entry h.table},
      (c.registry.index h).find? name = some e → (c'.registry.index h).find? name = some e)
    (hlabel : ∀ {t : Table} (id : Id t) (l : Label), c.label? id = some l → c'.label? id = some l) :
    c'.Announced := by
  intro h hh e he
  rcases hentries h hh e he with hold | hnew
  · exact (ha h hh e hold).mono (fun _ => hfound) hlabel
  · exact hnew

/-- When the journal of a file is taken back, the entries of the other files stay declared. -/
theorem AnnouncedBeside.rollback {o : Owner} {owners : List Owner} (hb : c.AnnouncedBeside o.file)
    (ha : Accounted c (o :: owners)) : (c.rollback o.journal).Announced := by
  have hfiles := (List.nodup_cons.mp ha.files_nodup).1
  have stays {h : Heading} {e : Entry h.table} (he : e ∈ c.entries h) (hfile : e.file ≠ o.file) :
      e ∈ (c.rollback o.journal).entries h ∧ Change.inserted h.table e.id ∉ o.journal := by
    obtain ⟨o', ho', hf, hr, hi⟩ := ha.owner_of_entry h e he
    rcases List.mem_cons.mp ho' with rfl | ho'
    · exact absurd hf.symm hfile
    · have hout : Change.registered h e.name ∉ o.journal := fun hc => ha.owner_unique hc ho' hr
      rw [entries_rollback]
      exact ⟨List.mem_filter.mpr ⟨he, by simpa using hout⟩, fun hc => ha.owner_unique hc ho' hi⟩
  intro h hh e he
  rw [entries_rollback] at he
  obtain ⟨he, hout⟩ := List.mem_filter.mp he
  have hfile : e.file ≠ o.file := by
    obtain ⟨o', ho', hf, hr, -⟩ := ha.owner_of_entry h e he
    rcases List.mem_cons.mp ho' with rfl | ho'
    · simp [hr] at hout
    · exact fun hsame => hfiles (hsame ▸ hf ▸ List.mem_map_of_mem ho')
  obtain ⟨e', kind, target, hfound, hfile', hkind, htarget, hlabel⟩ := hb h hh e he hfile
  obtain ⟨hmem, hname⟩ := find?_eq_some hfound
  obtain ⟨hmem', hid⟩ := stays (h := .declarations) hmem (hfile'.symm ▸ hfile)
  refine ⟨e', kind, target, ?_, hfile', hkind, htarget, ?_⟩
  · rw [← hname]
    exact find?_of_mem hmem' (ha.rollback.names_nodup .declarations)
  · rwa [label?, get?_rollback, if_neg hid]

/-- Two announced entries of one name are one entry, as far as types go. -/
theorem Announces.unique {h h' : Heading} {e : Entry h.table} {e' : Entry h'.table}
    (ha : c.Announces h e) (ha' : c.Announces h' e') (hname : e.name = e'.name) {m m' : TypeMeaning}
    (hm : h.meaning? e.id = some m) (hm' : h'.meaning? e'.id = some m') : h = h' ∧ m = m' := by
  obtain ⟨d, kind, target, hd, -, hkind, htarget, hl⟩ := ha
  obtain ⟨d', kind', target', hd', -, hkind', htarget', hl'⟩ := ha'
  rw [hname] at hd
  cases hd.symm.trans hd'
  have hlabel := Option.some.inj (hl.symm.trans hl')
  simp only [Label.mk.injEq, Role.declaration.injEq] at hlabel
  obtain ⟨-, -, rfl, rfl⟩ := hlabel
  -- the kind of the declaration tells the heading, and its target the handle
  obtain rfl : h = h' := Option.some.inj <|
    (Heading.typeHeading?_of_declarationKind hm hkind).symm.trans
      (Heading.typeHeading?_of_declarationKind hm' hkind')
  have href :=
    (Heading.reference_of_target? htarget).symm.trans (Heading.reference_of_target? htarget')
  have hid : e.id = e'.id := by simpa using href
  rw [hid] at hm
  exact ⟨rfl, Option.some.inj (hm.symm.trans hm')⟩

/-- Where all names are declared, a name has no other meaning than one that it has. -/
theorem Announced.meanings_eq (ha : c.Announced) {name : String} {m : TypeMeaning}
    (hm : m ∈ c.registry.meanings name) : c.registry.meanings name = [m] := by
  cases hf : fixedMeaning? name with
  | some fixed =>
    rw [Registry.meanings_of_fixed hf] at hm ⊢
    rw [List.mem_singleton.mp hm]
  | none =>
    obtain ⟨k, e, he, hme⟩ := Registry.exists_entry_of_mem_meanings hf hm
    rw [Registry.meanings_of_not_fixed hf]
    have announced {h : Heading} {x : Entry h.table} {m' : TypeMeaning}
        (hx : (c.registry.index h).find? name = some x) (hm' : h.meaning? x.id = some m') :
        c.Announces h x ∧ x.name = name :=
      ⟨ha h (Heading.ne_declarations hm') x (find?_eq_some hx).1, (find?_eq_some hx).2⟩
    obtain ⟨hak, hek⟩ := announced he hme
    have hself : c.registry.enteredMeanings name k = [m] := by
      simp [Registry.enteredMeanings, he, hme]
    have hother : ∀ h, h ≠ k → c.registry.enteredMeanings name h = [] := by
      refine fun h hne => List.eq_nil_iff_forall_not_mem.mpr fun m' hm' => ?_
      obtain ⟨x, hx, hmx⟩ := Registry.mem_enteredMeanings.mp hm'
      obtain ⟨hax, hxn⟩ := announced hx hmx
      exact hne (hax.unique hak (hxn.trans hek.symm) hmx hme).1
    cases k with
    | structs | enums | aliases | classes => simp [typeHeadings, hself, hother]
    | constants | globals | declarations => cases hme

end Catalog

end InterfaceCatalog
