import InterfaceCatalog.Proofs.Catalog.Content

namespace InterfaceCatalog

structure Reference where
  table : Table
  id : Id table

namespace Reference

def ofOption {t : Table} (id : Option (Id t)) : List Reference :=
  id.toList.map (Reference.mk t)

def ofList {t : Table} (ids : List (Id t)) : List Reference :=
  ids.map (Reference.mk t)

@[simp] theorem forall_ofOption {t : Table} {id : Option (Id t)} {P : Reference → Prop} :
    (∀ ref ∈ ofOption id, P ref) ↔ ∀ i ∈ id, P ⟨t, i⟩ := by
  cases id <;> simp [ofOption]

@[simp] theorem forall_ofList {t : Table} {ids : List (Id t)} {P : Reference → Prop} :
    (∀ ref ∈ ofList ids, P ref) ↔ ∀ i ∈ ids, P ⟨t, i⟩ := by
  simp [ofList]

end Reference

open Reference in
def ReturnRecord.references (r : ReturnRecord) : List Reference :=
  ofOption r.type ++ ofOption r.default ++ ofOption r.documentation

open Reference in
def AccessorRecord.references (r : AccessorRecord) : List Reference :=
  r.result.references ++ ofList r.keys ++ ofList r.values

def DeclarationTarget.reference : DeclarationTarget → Reference
  | .classTarget id => ⟨_, id⟩
  | .typedeclTarget id => ⟨_, id⟩
  | .variableTarget id => ⟨_, id⟩

open Reference in
/-- The handles that a record of a table stores. -/
def references : (t : Table) → Record t → List Reference
  | .classes, r =>
    ofOption r.documentation ++ ofList r.inherits ++ ofList r.functions ++ ofList r.implements ++
      ofList r.constructors ++ ofList r.events ++ ofList r.parts
  | .parts, r => ⟨_, r.classId⟩ :: ofOption r.documentation
  | .constructors, r => [⟨_, r.classId⟩, ⟨_, r.function⟩]
  | .events, r => ⟨_, r.classId⟩ :: (ofOption r.type ++ ofOption r.documentation)
  | .functions, r =>
    ofOption r.classId ++ ofList r.parameters ++ r.method.toList.flatMap
      AccessorRecord.references ++ r.getter.toList.flatMap AccessorRecord.references ++
      r.setter.toList.flatMap AccessorRecord.references ++ ofOption r.implement
  | .parameters, r => ⟨_, r.type⟩ :: (ofOption r.default ++ ofOption r.documentation)
  | .implements, r =>
    [⟨_, r.classId⟩, ⟨_, r.implementingClass⟩, ⟨_, r.function⟩] ++ ofOption r.documentation ++
      ofOption r.getterDocumentation ++ ofOption r.setterDocumentation
  | .types, r =>
    ofOption r.firstParameter ++ ofOption r.next ++ ofOption r.typedecl ++ ofOption r.classId
  | .typedecls, r =>
    ofOption r.documentation ++ ofList r.structFields ++ ofList r.enumFields ++ ofOption r.base ++
      ofOption r.function
  | .structFields, r => ⟨_, r.type⟩ :: ofOption r.documentation
  | .enumFields, r => ⟨_, r.typedecl⟩ :: ⟨_, r.value⟩ :: ofOption r.documentation
  | .expressions, .literal _ => []
  | .expressions, .unary _ operand => [⟨_, operand⟩]
  | .expressions, .binary _ lhs rhs => [⟨_, lhs⟩, ⟨_, rhs⟩]
  | .variables, r => ⟨_, r.type⟩ :: (ofOption r.value ++ ofOption r.documentation)
  | .declarations, r => [r.target.reference]
  | .documentation, _ => []

/-- The tables whose records may be referred to from other files. -/
def Table.IsShared (t : Table) : Prop :=
  t = .classes ∨ t = .typedecls ∨ t = .functions

theorem Table.classes_isShared : Table.classes.IsShared := Or.inl rfl

theorem Table.typedecls_isShared : Table.typedecls.IsShared := Or.inr (Or.inl rfl)

theorem Table.functions_isShared : Table.functions.IsShared := Or.inr (Or.inr rfl)

/-- A handle that is fit to be stored by a build with the given journal: it is one of its own, or a
live one of a shared table. -/
def Backed (c : Catalog) (journal : List Change) {t : Table} (id : Id t) : Prop :=
  Change.inserted t id ∈ journal ∨ t.IsShared ∧ c.Live id

def AllBacked (c : Catalog) (journal : List Change) {t : Table} (record : Record t) : Prop :=
  ∀ ref ∈ references t record, Backed c journal ref.id

/-- The references that a record gains when it is changed are fit to be stored. -/
def NewlyBacked (c : Catalog) (journal : List Change) {t : Table} (old new : Record t) : Prop :=
  ∀ ref ∈ references t new, ref ∈ references t old ∨ Backed c journal ref.id

/-- A part of a record that is changed is as it was, or what it holds now is fit to be stored. -/
theorem newly_of_eq_or {c : Catalog} {journal : List Change} {t : Table} {γ : Type}
    [Membership (Id t) γ] {old new : γ} {refs : List Reference} {P : Id t → Prop}
    (hold : ∀ id ∈ old, Reference.mk t id ∈ refs) (hP : ∀ {id}, P id → Backed c journal id)
    (h : new = old ∨ ∀ id ∈ new, P id) :
    ∀ id ∈ new, Reference.mk t id ∈ refs ∨ Backed c journal id := by
  rcases h with rfl | h
  · exact fun id hid => .inl (hold id hid)
  · exact fun id hid => .inr (hP (h id hid))

end InterfaceCatalog
