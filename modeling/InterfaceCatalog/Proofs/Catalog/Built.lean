import InterfaceCatalog.Proofs.Catalog.Stored

namespace InterfaceCatalog

section

variable (find : Lookup)

/-- The value of a field without one: it is so far from the value of the last field with
one, or from zero. -/
def CountedAt (anchor : Option (Id .expressions)) (distance : Nat) (id : Id .expressions) : Prop :=
  ∃ offset, find .expressions offset = some (.literal (.value (.integer (.wrap .int distance)))) ∧
    match anchor with
    | none => id = offset
    | some anchor => find .expressions id = some (.binary .add anchor offset)

/-- The fields of an enum count from one on, where `anchor` is the value of the last field with one
and `distance` the number of fields since. -/
def CountsFrom :
    (anchor : Option (Id .expressions)) → (distance : Nat) → List EnumFieldRecord → Prop
  | _, _, [] => True
  | anchor, distance, field :: fields =>
    if field.isExplicit then CountsFrom (some field.value) 1 fields
    else CountedAt find anchor distance field.value ∧ CountsFrom anchor (distance + 1) fields

/-- The fields of an enum count from the first one on. -/
def TypedeclRecord.Counts (r : TypedeclRecord) : Prop :=
  ∃ fields, List.Forall₂ (fun id field => find .enumFields id = some field) r.enumFields fields ∧
    CountsFrom find none 0 fields

/-- The keys and values of a property are stored even if each of its accessors has its own. -/
def Building.FunctionSource.SharesAt : Building.FunctionSource → Prop
  | .method _ => True
  | .property source =>
    (∃ keys, List.Forall₂ (ParameterSource.StoredAt find) source.keys keys) ∧
      ∃ values, List.Forall₂ (ParameterSource.StoredAt find) source.values values

end

/-- Whether a function of a class can be used: a property can be read or written. -/
def Building.FunctionSource.IsUsable : Building.FunctionSource → Prop
  | .method _ => True
  | .property source => source.getter.isSome ∨ source.setter.isSome

/-- No two functions of a class have the same name, and each can be used. -/
structure ClassSource.WellFormed (source : ClassSource) : Prop where
  nodup : ((Building.functionSources source).map Building.FunctionSource.name).Nodup
  usable : ∀ a ∈ Building.functionSources source, a.IsUsable

namespace DeclarationSource

/-- What a build sees to when it fills a declaration. -/
def CheckedAt (find : Lookup) : DeclarationSource → DeclarationTarget → Prop
  | .declaredClass source, _ =>
    source.WellFormed ∧ ∀ a ∈ Building.functionSources source, a.SharesAt find
  | .enum _, .typedeclTarget id => ∃ r, find .typedecls id = some r ∧ r.Counts find
  | _, _ => True

/-- A declaration is stored as it is written, by a build that has seen to it. -/
structure BuiltAt (find : Lookup) (file : String) (x : DeclarationSource)
    (target : DeclarationTarget) : Prop where
  stored : x.StoredAt find file target
  checked : x.CheckedAt find target

end DeclarationSource

end InterfaceCatalog
