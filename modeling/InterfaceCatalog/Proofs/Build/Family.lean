import InterfaceCatalog.Proofs.Build.Loading

namespace InterfaceCatalog

/-- A class without members of its own. -/
structure ClassSource.IsBare (source : ClassSource) : Prop where
  methods : source.methods = []
  properties : source.properties = []
  events : source.events = []
  parts : source.parts = []
  implements : source.implements = []
  constructors : source.constructors = []

namespace Sources

/-- The file that an import stands for. -/
def imported? (src : Sources) (name : String) : Option String :=
  [name ++ "." ++ src.settings.typesExtension, name ++ "." ++ src.settings.interfaceExtension].find?
    src.files.contains

/-- The interface file that is named after a class. -/
def classFile (src : Sources) (name : String) : String :=
  toSmalls (cSpelling name) ++ "." ++ src.settings.interfaceExtension

/-- A file that is named after its class is the only one with a class of this name. -/
structure Family (src : Sources) where
  members : List String
  classOf : String → ClassSource
  importsOf : String → List String
  known : ∀ m ∈ members, ∃ file, src.files.find? m = some file ∧ file.kind = .interface ∧
    src.readSource file = .ok { imports := importsOf m, declaredClass := some (classOf m) }
  bare : ∀ m ∈ members, (classOf m).IsBare
  named : ∀ m ∈ members, src.classFile (classOf m).name = m
  imported : ∀ m ∈ members, ∀ name ∈ importsOf m, ∃ f ∈ members, src.imported? name = some f
  inherited : ∀ m ∈ members, ∀ name ∈ (classOf m).inherits, ∃ f ∈ members, (classOf f).name = name

namespace Family

variable {src : Sources} (fam : src.Family)

def className (m : String) : String :=
  (fam.classOf m).name

def sourceOf (m : String) : FileSource :=
  { imports := fam.importsOf m, declaredClass := some (fam.classOf m) }

def Imports (m f : String) : Prop :=
  m ∈ fam.members ∧ f ∈ fam.members ∧ ∃ name ∈ fam.importsOf m, src.imported? name = some f

def Inherits (m f : String) : Prop :=
  m ∈ fam.members ∧ f ∈ fam.members ∧ fam.className f ∈ (fam.classOf m).inherits

def Needs (m f : String) : Prop :=
  fam.Imports m f ∨ fam.Inherits m f

/-- A file leads to another one through imports and parents. -/
def Reaches : String → String → Prop :=
  Relation.ReflTransGen fam.Needs

/-- The imports of a file lead to another one without passing through any of `avoided`. -/
def Awaits (avoided : List String) (m f : String) : Prop :=
  ∃ g, fam.Imports m g ∧ g ∉ avoided ∧
    Relation.ReflTransGen (fun a b => fam.Needs a b ∧ b ∉ avoided) g f

/-- The imports of a file lead to one that inherits its class. The class is entered only after the
imports are done, so that the other file comes too early. -/
def LoopsBeside (outer : List String) (m : String) : Prop :=
  ∃ x, fam.Awaits (m :: outer) m x ∧ fam.Inherits x m

def Loops (m : String) : Prop :=
  fam.LoopsBeside [] m

variable {fam}

theorem className_injective {m f : String} (hm : m ∈ fam.members) (hf : f ∈ fam.members)
    (h : fam.className m = fam.className f) : m = f := by
  have hfile : src.classFile (fam.className m) = m := fam.named m hm
  rw [← hfile, h]
  exact fam.named f hf

theorem Needs.right_mem {m f : String} (h : fam.Needs m f) : f ∈ fam.members :=
  h.elim (fun h => h.2.1) fun h => h.2.1

theorem Reaches.right_mem {m f : String} (h : fam.Reaches m f) (hm : m ∈ fam.members) :
    f ∈ fam.members := by
  cases h with
  | refl => exact hm
  | tail _ h => exact h.right_mem

theorem Awaits.tail {avoided : List String} {m x f : String} (h : fam.Awaits avoided m x)
    (hn : fam.Needs x f) (hf : f ∉ avoided) : fam.Awaits avoided m f := by
  obtain ⟨g, hg, hout, hpath⟩ := h
  exact ⟨g, hg, hout, hpath.tail ⟨hn, hf⟩⟩

variable (fam)

/-- The handles stand for the classes of the given names. -/
def Resolved (c : Catalog) : List String → List (Id .classes) → Prop :=
  List.Forall₂ fun name id => ∃ e, c.registry.classes.find? name = some e ∧ e.id = id

/-- The class of a member, with all the parents that it lists. -/
def Built (c : Catalog) (m : String) : Prop :=
  ∃ e r, c.registry.classes.find? (fam.className m) = some e ∧ e.file = m ∧ c.get? e.id = some r ∧
    Resolved c (fam.classOf m).inherits r.inherits

/-- Nothing is entered under the class name of a member. -/
def Vacant (c : Catalog) (m : String) : Prop :=
  c.registry.classes.find? (fam.className m) = none ∧
    c.registry.declarations.find? (fam.className m) = none

/-- What a catalog holds of a family while the files of `loading` are being built, of which those of
`early` have not entered their classes yet. -/
structure Intact (c : Catalog) (loading early : List String) : Prop where
  early_subset : early ⊆ loading
  closed : ∀ m ∈ c.parsed, ∀ f, fam.Needs m f → f ∈ c.parsed ∨ f ∈ loading
  built : ∀ m ∈ fam.members, m ∈ c.parsed → fam.Built c m
  entered : ∀ m ∈ fam.members, m ∈ loading → m ∉ early →
    ∃ e, c.registry.classes.find? (fam.className m) = some e
  vacant : ∀ m ∈ fam.members, m ∉ c.parsed → (m ∈ loading → m ∈ early) → fam.Vacant c m

theorem intact_empty : fam.Intact {} [] [] where
  early_subset := List.Subset.refl _
  closed m hm := by simp [Catalog.parsed] at hm
  built m _ hm := by simp [Catalog.parsed] at hm
  entered m _ hm := by simp at hm
  vacant _ _ _ _ := ⟨rfl, rfl⟩

variable {fam} {c c' : Catalog} {loading early : List String} {name : String}

theorem Resolved.mono {names : List String} {ids : List (Id .classes)} (h : Resolved c names ids)
    (hfound : ∀ {n e}, c.registry.classes.find? n = some e → c'.registry.classes.find? n = some e) :
    Resolved c' names ids :=
  List.Forall₂.imp (fun _ _ ⟨e, he, hid⟩ => ⟨e, hfound he, hid⟩) h

/-- A parent that is listed has been found. -/
theorem Resolved.exists_entry {names : List String} {ids : List (Id .classes)}
    (h : Resolved c names ids) {n : String} (hn : n ∈ names) :
    ∃ e, c.registry.classes.find? n = some e := by
  induction h with
  | nil => simp at hn
  | cons h _ ih =>
    rcases List.mem_cons.mp hn with rfl | hn
    · exact ⟨_, h.choose_spec.1⟩
    · exact ih hn

theorem Built.mono {m : String} (h : fam.Built c m)
    (hfound : ∀ {n e}, c.registry.classes.find? n = some e → c'.registry.classes.find? n = some e)
    (hkept : ∀ {e r}, c.registry.classes.find? (fam.className m) = some e → e.file = m →
      c.get? e.id = some r → c'.get? e.id = some r) : fam.Built c' m := by
  obtain ⟨e, r, he, hfile, hr, hparents⟩ := h
  exact ⟨e, r, hfound he, hfile, hkept he hfile hr, hparents.mono hfound⟩

namespace Intact

/-- A member whose class is found is parsed or under way. -/
theorem mem_of_found (h : fam.Intact c loading early) {m : String} (hm : m ∈ fam.members)
    {e : Entry .classes} (he : c.registry.classes.find? (fam.className m) = some e) :
    m ∈ c.parsed ∨ m ∈ loading := by
  by_contra hout
  rw [not_or] at hout
  have hvacant := (h.vacant m hm hout.1 fun hl => absurd hl hout.2).1
  rw [he] at hvacant
  cases hvacant

/-- A member that is parsed or has entered its class is found. -/
theorem found_of_mem (h : fam.Intact c loading early) {m : String} (hm : m ∈ fam.members)
    (hdone : m ∈ c.parsed ∨ m ∈ loading) (hlate : m ∉ early) :
    ∃ e, c.registry.classes.find? (fam.className m) = some e := by
  rcases hdone with hp | hl
  · obtain ⟨e, _, he, -⟩ := h.built m hm hp
    exact ⟨e, he⟩
  · exact h.entered m hm hl hlate

/-- A build that begins has entered nothing. -/
theorem begin (h : fam.Intact c loading early) (hidle : name ∉ loading) :
    fam.Intact c (name :: loading) (name :: early) where
  early_subset := List.cons_subset_cons _ h.early_subset
  closed m hm f hf := (h.closed m hm f hf).imp_right (List.mem_cons_of_mem _)
  built := h.built
  entered m hm hl hearly := by
    rw [List.mem_cons, not_or] at hearly
    exact h.entered m hm ((List.mem_cons.mp hl).resolve_left hearly.1) hearly.2
  vacant m hm hp hlate := by
    refine h.vacant m hm hp fun hl => ?_
    refine (List.mem_cons.mp (hlate (List.mem_cons_of_mem _ hl))).resolve_left ?_
    rintro rfl
    exact hidle hl

/-- Changes that leave the entries and the classes of the parsed members alone do not matter. -/
theorem congr (h : fam.Intact c loading early) (hparsed : c'.parsed = c.parsed)
    (hregistry : c'.registry = c.registry)
    (hkept : ∀ m ∈ c.parsed, ∀ {e r}, c.registry.classes.find? (fam.className m) = some e →
      e.file = m → c.get? e.id = some r → c'.get? e.id = some r) : fam.Intact c' loading early where
  early_subset := h.early_subset
  closed := hparsed ▸ h.closed
  built m hm hp := by
    rw [hparsed] at hp
    exact (h.built m hm hp).mono (fun he => hregistry ▸ he) (hkept m hp)
  entered := hregistry ▸ h.entered
  vacant m hm hp hlate := by
    rw [Vacant, hregistry]
    exact h.vacant m hm (hparsed ▸ hp) hlate

/-- If all imports of a member are done before it enters its class, then none of them led to a file
that inherits it. -/
theorem not_loopsBeside (h : fam.Intact c (name :: loading) (name :: early))
    (hname : name ∈ fam.members) (hparsed : name ∉ c.parsed)
    (himports : ∀ f, fam.Imports name f → f ∈ c.parsed ∨ f ∈ name :: loading) :
    ¬ fam.LoopsBeside loading name := by
  rintro ⟨x, ⟨g, hg, hout, hpath⟩, hinherits⟩
  have hx : x ∈ c.parsed := by
    clear hinherits
    induction hpath with
    | refl => exact (himports g hg).resolve_right hout
    | tail _ hstep ih => exact (h.closed _ ih _ hstep.1).resolve_right hstep.2
  obtain ⟨_, _, -, -, -, hparents⟩ := h.built x hinherits.1 hx
  obtain ⟨e, he⟩ := hparents.exists_entry hinherits.2.2
  have hvacant := (h.vacant name hname hparsed fun _ => List.mem_cons_self).1
  rw [he] at hvacant
  cases hvacant

/-- A build enters its class, and no other name. -/
theorem enter (h : fam.Intact c (name :: loading) (name :: early)) (hname : name ∈ fam.members)
    (hidle : name ∉ early) (hparsed : c'.parsed = c.parsed)
    (hfound : ∀ {n e}, c.registry.classes.find? n = some e → c'.registry.classes.find? n = some e)
    (hkept : ∀ (id : Id .classes) r, c.get? id = some r → c'.get? id = some r)
    (hself : ∃ e, c'.registry.classes.find? (fam.className name) = some e)
    (hother : ∀ n, n ≠ fam.className name →
      c'.registry.classes.find? n = c.registry.classes.find? n ∧
      c'.registry.declarations.find? n = c.registry.declarations.find? n) :
    fam.Intact c' (name :: loading) early where
  early_subset := List.Subset.trans (List.subset_cons_self _ _) h.early_subset
  closed := hparsed ▸ h.closed
  built m hm hp := (h.built m hm (hparsed ▸ hp)).mono hfound fun _ _ hr => hkept _ _ hr
  entered m hm hl hearly := by
    by_cases hmn : m = name
    · exact hmn ▸ hself
    · obtain ⟨e, he⟩ := h.entered m hm hl (by simp [hmn, hearly])
      exact ⟨e, hfound he⟩
  vacant m hm hp hlate := by
    have hmn : m ≠ name := by
      rintro rfl
      exact hidle (hlate List.mem_cons_self)
    have hclass : fam.className m ≠ fam.className name :=
      fun he => hmn (className_injective hm hname he)
    have hvacant := h.vacant m hm (hparsed ▸ hp) fun hl => List.mem_cons_of_mem _ (hlate hl)
    rw [Vacant, (hother _ hclass).1, (hother _ hclass).2]
    exact hvacant

/-- A build that ends leaves its file parsed. -/
theorem conclude (h : fam.Intact c (name :: loading) early) (hearly : early ⊆ loading)
    (hneeds : ∀ f, fam.Needs name f → f ∈ c.parsed ∨ f ∈ name :: loading)
    (hbuilt : fam.Built c name) {b : Build} (hb : b.file = name) :
    fam.Intact (c.conclude b) loading early := by
  have hparsed : ∀ f, f ∈ (c.conclude b).parsed ↔ f ∈ c.parsed ∨ f = name := by
    simp [Catalog.conclude, Catalog.parsed, hb]
  have hdone : ∀ f, f ∈ c.parsed ∨ f ∈ name :: loading → f ∈ (c.conclude b).parsed ∨
      f ∈ loading := by
    intro f hf
    rw [hparsed, or_assoc]
    simpa using hf
  refine ⟨hearly, fun m hm f hf => hdone f ?_, fun m hm hp => ?_, fun m hm hl => ?_,
    fun m hm hp hlate => ?_⟩
  · rcases (hparsed m).mp hm with hp | rfl
    · exact h.closed m hp f hf
    · exact hneeds f hf
  · rcases (hparsed m).mp hp with hp | rfl
    · exact h.built m hm hp
    · exact hbuilt
  · exact h.entered m hm (List.mem_cons_of_mem _ hl)
  · rw [hparsed, not_or] at hp
    exact h.vacant m hm hp.1 fun hl => hlate ((List.mem_cons.mp hl).resolve_left hp.2)

end Intact

end Family

end Sources

end InterfaceCatalog
