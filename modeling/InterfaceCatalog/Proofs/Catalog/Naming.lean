import InterfaceCatalog.Proofs.Build.Account
import InterfaceCatalog.Proofs.Catalog.Reference

namespace InterfaceCatalog

/-- The heading under which type declarations of a kind are listed. -/
def TypedeclKind.heading? : TypedeclKind → Option Heading
  | .struct | .opaqueStruct => some .structs
  | .enum => some .enums
  | .alias | .functionPointer => some .aliases
  | .unknown => none

/-- The heading under which variables of a kind are listed. -/
def VariableKind.heading? : VariableKind → Option Heading
  | .constant => some .constants
  | .global => some .globals
  | .unknown => none

/-- As what a record is entered: under the heading of its kind, or as a declaration. -/
inductive Role where
  | listed (h : Heading)
  | declaration (kind : DeclarationKind) (target : DeclarationTarget)
  deriving DecidableEq

/-- The part of a record that its entry repeats. -/
structure Label where
  name : String
  file : String
  role : Role
  deriving DecidableEq

def label : (t : Table) → Record t → Option Label
  | .classes, r => some ⟨r.fullName, r.file, .listed .classes⟩
  | .typedecls, r => r.kind.heading?.map fun h => ⟨r.fullName, r.file, .listed h⟩
  | .variables, r => r.kind.heading?.map fun h => ⟨r.fullName, r.file, .listed h⟩
  | .declarations, r => some ⟨r.fullName, r.file, .declaration r.kind r.target⟩
  | _, _ => none

/-- The label of the live record of a handle. -/
def Catalog.label? (c : Catalog) {t : Table} (id : Id t) : Option Label :=
  (c.get? id).bind (label t)

theorem Catalog.live_of_label? {c : Catalog} {t : Table} {id : Id t} {l : Label}
    (h : c.label? id = some l) : c.Live id := by
  obtain ⟨r, hr, -⟩ := Option.bind_eq_some_iff.mp h
  exact live_of_get? hr

/-- A record that is changed in other respects keeps its label. -/
theorem Catalog.label?_modify (c : Catalog) {t : Table} {id : Id t} {f : Record t → Record t}
    (hf : ∀ r, label t (f r) = label t r) {u : Table} (other : Id u) :
    (c.modify id f).label? other = c.label? other := by
  by_cases hid : Change.inserted u other = .inserted t id
  · cases hid
    rw [label?, get?_modify_self, label?]
    cases c.get? id with
    | none => rfl
    | some r => exact hf r
  · rw [label?, get?_modify_of_ne c f hid, label?]

namespace Heading

/-- The kind of the declarations of what a heading lists. -/
def declarationKind? : Heading → Option DeclarationKind
  | .classes => some .className
  | .structs => some .structName
  | .enums => some .enumName
  | .aliases => some .aliasName
  | .constants | .globals => some .variableName
  | .declarations => none

/-- What a declaration of a listed record leads to. -/
def target? : (h : Heading) → Id h.table → Option DeclarationTarget
  | .classes, id => some (.classTarget id)
  | .structs, id | .enums, id | .aliases, id => some (.typedeclTarget id)
  | .constants, id | .globals, id => some (.variableTarget id)
  | .declarations, _ => none

/-- What a declaration leads to tells what its heading lists. -/
theorem reference_of_target? {h : Heading} {id : Id h.table} {target : DeclarationTarget}
    (ht : h.target? id = some target) : target.reference = ⟨h.table, id⟩ := by
  cases h <;> cases ht <;> rfl

end Heading

/-- The changes by which a name is declared. -/
def declaring (h : Heading) (name : String) : List Change :=
  [.registered h name, .registered .declarations name]

namespace FileSource

/-- The names of the class and the types that a file declares, with their headings. -/
def typeNames (source : FileSource) : List (Heading × String) :=
  source.declaredClass.toList.map (fun s => (.classes, s.name)) ++
    source.structs.map (fun s => (.structs, s.name)) ++
    source.enums.map (fun s => (.enums, s.name)) ++
    source.aliases.map (fun s => (.aliases, s.name)) ++
    source.functionPointers.map fun s => (.aliases, s.name)

def variableNames (source : FileSource) : List (Heading × String) :=
  source.constants.map (fun s => (.constants, s.name)) ++
    source.globals.map fun s => (.globals, s.name)

/-- The names that a file declares, in the order in which they are entered. -/
def names (source : FileSource) : List (Heading × String) :=
  source.typeNames ++ source.variableNames

/-- The names that a file enters. -/
def changes (source : FileSource) : List Change :=
  source.names.flatMap fun entry => declaring entry.1 entry.2

variable {source : FileSource} {h : Heading} {name : String}

theorem declaring_subset_changes (hn : (h, name) ∈ source.names) :
    declaring h name ⊆ source.changes :=
  fun _ hc => List.mem_flatMap.mpr ⟨_, hn, hc⟩

theorem inserted_not_mem_changes {t : Table} {id : Id t} :
    Change.inserted t id ∉ source.changes := by
  simp [changes, declaring]

theorem declarations_not_mem_names : (.declarations, name) ∉ source.names := by
  simp [names, typeNames, variableNames]

theorem registered_mem_changes_iff (hh : h ≠ .declarations) :
    Change.registered h name ∈ source.changes ↔ (h, name) ∈ source.names := by
  simp [changes, declaring, hh]

theorem declaration_mem_changes_iff :
    Change.registered .declarations name ∈ source.changes ↔ ∃ h, (h, name) ∈ source.names := by
  simp only [changes, declaring, List.mem_flatMap, List.mem_cons, List.not_mem_nil, or_false,
    Change.registered.injEq, true_and]
  constructor
  · rintro ⟨⟨h, n⟩, hn, ⟨rfl, rfl⟩ | rfl⟩
    · exact absurd hn declarations_not_mem_names
    · exact ⟨h, hn⟩
  · rintro ⟨h, hn⟩
    exact ⟨_, hn, .inr rfl⟩

theorem class_mem_names_iff :
    (.classes, name) ∈ source.names ↔ ∃ s ∈ source.declaredClass, s.name = name := by
  simp [names, typeNames, variableNames]

end FileSource

/-- A build has entered a record under a name. -/
structure Catalog.Entered (c : Catalog) (o : Owner) (h : Heading) (name : String) (role : Role)
    (id : Id h.table) : Prop where
  found : (c.registry.index h).find? name = some ⟨name, o.file, id⟩
  registered : Change.registered h name ∈ o.journal
  inserted : Change.inserted h.table id ∈ o.journal
  labelled : c.label? id = some ⟨name, o.file, role⟩

/-- No other entry has the name that a build has entered. -/
theorem Catalog.Entered.entry_eq {c : Catalog} {o : Owner} {h : Heading} {name : String}
    {role : Role} {id : Id h.table} (he : c.Entered o h name role id)
    (hn : ((c.entries h).map Entry.name).Nodup) {e : Entry h.table} (hmem : e ∈ c.entries h)
    (hname : e.name = name) : e = ⟨name, o.file, id⟩ := by
  subst hname
  exact Option.some.inj ((find?_of_mem hmem hn).symm.trans he.found)

/-- A build has declared a name under a heading: it has entered a record of this kind, and a
declaration that leads to it. -/
def Catalog.Declares (c : Catalog) (o : Owner) (h : Heading) (name : String) : Prop :=
  ∃ id kind target id', h.declarationKind? = some kind ∧ h.target? id = some target ∧
    c.Entered o h name (.listed h) id ∧
    c.Entered o .declarations name (.declaration kind target) id'

end InterfaceCatalog
