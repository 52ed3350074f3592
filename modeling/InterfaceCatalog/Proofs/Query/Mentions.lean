import InterfaceCatalog.Proofs.Database.Reproduction

namespace InterfaceCatalog

/-- A place that mentions a type or an expression, in a form of either. -/
inductive Mention (τ ε : Type) where
  | type (t : τ)
  | value (e : ε)

/-- What a file mentions. -/
abbrev WrittenMention := Mention TypeSource String

/-- What the records of a file mention. -/
abbrev StoredMention := Mention (Id .types) (Id .expressions)

namespace Mention

variable {τ τ' ε ε' : Type} {R : τ → τ' → Prop} {S : ε → ε' → Prop}

def type? : Mention τ ε → Option τ
  | type t => some t
  | value _ => none

def value? : Mention τ ε → Option ε
  | type _ => none
  | value e => some e

/-- Two mentions of the same sort, whose forms are related. -/
inductive Rel (R : τ → τ' → Prop) (S : ε → ε' → Prop) : Mention τ ε → Mention τ' ε' → Prop
  | type {t : τ} {t' : τ'} (h : R t t') : Rel R S (.type t) (.type t')
  | value {e : ε} {e' : ε'} (h : S e e') : Rel R S (.value e) (.value e')

section

variable {ms : List (Mention τ ε)} {ms' : List (Mention τ' ε')} (h : List.Forall₂ (Rel R S) ms ms')

include h

theorem forall₂_types : List.Forall₂ R (ms.filterMap type?) (ms'.filterMap type?) := by
  refine List.rel_filterMap (fun m m' hm => ?_) h
  cases hm with
  | type ht => exact .some ht
  | value _ => exact .none

theorem forall₂_values : List.Forall₂ S (ms.filterMap value?) (ms'.filterMap value?) := by
  refine List.rel_filterMap (fun m m' hm => ?_) h
  cases hm with
  | type _ => exact .none
  | value he => exact .some he

end

theorem forall₂_option_type {o : Option τ} {o' : Option τ'} (h : Option.Rel R o o') :
    List.Forall₂ (Rel R S) (o.toList.map type) (o'.toList.map type) := by
  cases h with
  | none => exact .nil
  | some h => exact .cons (.type h) .nil

theorem forall₂_option_value {o : Option ε} {o' : Option ε'} (h : Option.Rel S o o') :
    List.Forall₂ (Rel R S) (o.toList.map value) (o'.toList.map value) := by
  cases h with
  | none => exact .nil
  | some h => exact .cons (.value h) .nil

end Mention

def ParameterSource.mentions (source : ParameterSource) : List WrittenMention :=
  .type source.type :: source.default.toList.map .value

def ReturnSource.mentions (source : ReturnSource) : List WrittenMention :=
  .type source.type :: source.default.toList.map .value

/-- The own keys and values of an accessor stand in for those of its property. -/
def AccessorSource.mentions (keys values : List ParameterSource) (source : AccessorSource) :
    List WrittenMention :=
  (source.keys.getD keys).flatMap ParameterSource.mentions ++
    (source.values.getD values).flatMap ParameterSource.mentions ++
    source.result.toList.flatMap ReturnSource.mentions

def Building.FunctionSource.mentions : Building.FunctionSource → List WrittenMention
  | .method source =>
    source.parameters.flatMap ParameterSource.mentions ++ source.result.toList.flatMap
      ReturnSource.mentions
  | .property source =>
    source.getter.toList.flatMap (AccessorSource.mentions source.keys source.values) ++
      source.setter.toList.flatMap (AccessorSource.mentions source.keys source.values)

/-- What the keys and values of a property mention, whether or not an accessor takes them over. -/
def Building.FunctionSource.sharedMentions : Building.FunctionSource → List WrittenMention
  | .method _ => []
  | .property source =>
    source.keys.flatMap ParameterSource.mentions ++ source.values.flatMap ParameterSource.mentions

def ClassSource.mentions (source : ClassSource) : List WrittenMention :=
  (Building.functionSources source).flatMap Building.FunctionSource.mentions ++
    source.events.flatMap fun event => event.type.toList.map .type

namespace DeclarationSource

def mentions : DeclarationSource → List WrittenMention
  | .declaredClass source => source.mentions
  | .struct source => source.fields.map fun field => .type field.type
  | .enum source => source.fields.flatMap fun field => field.value.toList.map .value
  | .alias source => [.type source.type]
  | .functionPointer source =>
    source.parameters.flatMap ParameterSource.mentions ++ source.result.toList.flatMap
      ReturnSource.mentions
  | .constant source | .global source => .type source.type :: source.value.toList.map .value

end DeclarationSource

def FileSource.mentions (source : FileSource) : List WrittenMention :=
  source.declarations.flatMap DeclarationSource.mentions

def FileSource.sharedMentions (source : FileSource) : List WrittenMention :=
  source.declaredClass.toList.flatMap fun a =>
    (Building.functionSources a).flatMap Building.FunctionSource.sharedMentions

def ReturnRecord.mentions (r : ReturnRecord) : List StoredMention :=
  r.type.toList.map .type ++ r.default.toList.map .value

def VariableRecord.mentions (r : VariableRecord) : List StoredMention :=
  .type r.type :: r.value.toList.map .value

namespace Catalog

def parameterMentions (c : Catalog) (ids : List (Id .parameters)) : List StoredMention :=
  (c.views ids).flatMap fun v => .type v.record.type :: v.record.default.toList.map .value

def accessorMentions (c : Catalog) (a : AccessorRecord) : List StoredMention :=
  c.parameterMentions a.keys ++ c.parameterMentions a.values ++ a.result.mentions

def functionMentions (c : Catalog) (f : FunctionRecord) : List StoredMention :=
  c.parameterMentions f.parameters ++
    [f.method, f.getter, f.setter].flatMap fun a => a.toList.flatMap c.accessorMentions

def classMentions (c : Catalog) (r : ClassRecord) : List StoredMention :=
  (c.views r.functions).flatMap (fun v => c.functionMentions v.record) ++
    (c.events r).flatMap fun v => v.record.type.toList.map .type

/-- The values of the fields that are written without one are left out. -/
def typedeclMentions (c : Catalog) (r : TypedeclRecord) : List StoredMention :=
  (c.structFields r).map (fun v => .type v.record.type) ++
    (c.enumFields r).flatMap
      (fun v => if v.record.isExplicit then [.value v.record.value] else []) ++
    r.base.toList.map .type ++
    (c.optionView? r.function).toList.flatMap fun v => c.functionMentions v.record

def targetMentions (c : Catalog) : DeclarationTarget → List StoredMention
  | .classTarget id => (c.view? id).toList.flatMap fun v => c.classMentions v.record
  | .typedeclTarget id => (c.view? id).toList.flatMap fun v => c.typedeclMentions v.record
  | .variableTarget id => (c.view? id).toList.flatMap fun v => v.record.mentions

def fileMentions (c : Catalog) (file : String) : List StoredMention :=
  (c.listAll .declarations (some file)).flatMap fun v => c.targetMentions v.record.target

end Catalog

/-- All that is found is in a catalog. -/
def Lookup.Within (find : Lookup) (c : Catalog) : Prop :=
  ∀ {t : Table} (id : Id t) (r : Record t), find t id = some r → c.get? id = some r

/-- A mention is stored as it is written. -/
abbrev Lookup.Mentioned (find : Lookup) : WrittenMention → StoredMention → Prop :=
  Mention.Rel (TypeSource.StoredAt find) (ExpressionStoredAt find)

namespace Catalog

variable {c : Catalog} {find : Lookup}

theorem records_within (c : Catalog) : c.records.Within c :=
  fun _ _ h => h

theorem parameterMentions_nil : c.parameterMentions [] = [] :=
  rfl

/-- A function without accessors mentions its parameters and its result. -/
theorem functionMentions_plain {f : FunctionRecord} {a : AccessorRecord} (hm : f.method = some a)
    (hg : f.getter = none) (hs : f.setter = none) (hk : a.keys = []) (hv : a.values = []) :
    c.functionMentions f = c.parameterMentions f.parameters ++ a.result.mentions := by
  simp [functionMentions, hm, hg, hs, accessorMentions, hk, hv, parameterMentions_nil]

theorem functionMentions_property {f : FunctionRecord} (hp : f.parameters = [])
    (hm : f.method = none) :
    c.functionMentions f =
      f.getter.toList.flatMap c.accessorMentions ++ f.setter.toList.flatMap c.accessorMentions := by
  simp [functionMentions, hp, hm, parameterMentions_nil]

theorem forall₂_returnMentions {o : Option ReturnSource} {r : ReturnRecord}
    (h : ReturnSource.StoredAs find o r) :
    List.Forall₂ find.Mentioned (o.toList.flatMap ReturnSource.mentions) r.mentions := by
  cases o with
  | none =>
    cases h
    exact .nil
  | some source =>
    obtain ⟨type, default, documentation, rfl, htype, hdefault, -⟩ := h
    rw [Option.toList_some, List.flatMap_singleton]
    exact .cons (.type htype) (Mention.forall₂_option_value hdefault)

section

variable (hfind : find.Within c)

include hfind

theorem forall₂_parameterMentions {sources : List ParameterSource} {ids : List (Id .parameters)}
    (h : List.Forall₂ (ParameterSource.StoredAt find) sources ids) :
    List.Forall₂ find.Mentioned (sources.flatMap ParameterSource.mentions)
      (c.parameterMentions ids) := by
  have hviews : List.Forall₂ (fun (source : ParameterSource) (v : View .parameters) =>
      List.Forall₂ find.Mentioned source.mentions
      (.type v.record.type :: v.record.default.toList.map .value))
      sources (c.views ids) := by
    refine forall₂_views (h.imp ?_)
    rintro source id ⟨type, default, documentation, hget, htype, hdefault, -⟩
    exact ⟨_, hfind _ _ hget, .cons (.type htype) (Mention.forall₂_option_value hdefault)⟩
  exact List.rel_flatMap hviews fun _ _ h => h

theorem forall₂_accessorMentions {keys values : List ParameterSource} {source : AccessorSource}
    {a : AccessorRecord} (h : source.StoredAs find keys values a) :
    List.Forall₂ find.Mentioned (source.mentions keys values) (c.accessorMentions a) := by
  obtain ⟨result, ownKeys, ownValues, rfl, hresult, hkeys, hvalues⟩ := h
  exact List.rel_append
    (List.rel_append (forall₂_parameterMentions hfind hkeys)
      (forall₂_parameterMentions hfind hvalues))
    (forall₂_returnMentions hresult)

theorem forall₂_option_accessorMentions {keys values : List ParameterSource}
    {o : Option AccessorSource} {o' : Option AccessorRecord}
    (h : Option.Rel (AccessorSource.StoredAs find keys values) o o') :
    List.Forall₂ find.Mentioned (o.toList.flatMap (AccessorSource.mentions keys values))
      (o'.toList.flatMap c.accessorMentions) := by
  cases h with
  | none => exact .nil
  | some h => simpa using forall₂_accessorMentions hfind h

theorem forall₂_functionMentions {owner : Id .classes} {className : String}
    {source : Building.FunctionSource} {member : Id .functions × Id .implements}
    (h : source.StoredAt find owner className member) :
    ∃ f : FunctionRecord, c.get? member.1 = some f ∧
      List.Forall₂ find.Mentioned source.mentions (c.functionMentions f) := by
  cases source with
  | method source =>
    obtain ⟨parameters, result, documentation, hget, -, hparameters, hresult, -⟩ := h
    refine ⟨_, hfind _ _ hget, ?_⟩
    rw [functionMentions_plain rfl rfl rfl rfl rfl]
    exact List.rel_append (forall₂_parameterMentions hfind hparameters)
      (forall₂_returnMentions hresult)
  | property source =>
    obtain ⟨getter, setter, _, _, _, hget, -, hgetter, hsetter, -⟩ := h
    refine ⟨_, hfind _ _ hget, ?_⟩
    rw [functionMentions_property rfl rfl]
    exact List.rel_append (forall₂_option_accessorMentions hfind hgetter)
      (forall₂_option_accessorMentions hfind hsetter)

theorem forall₂_classMentions {file : String} {id : Id .classes} {source : ClassSource}
    {r : ClassRecord} (h : source.StoredAs find file id r) :
    List.Forall₂ find.Mentioned source.mentions (c.classMentions r) := by
  obtain ⟨_, _, members, _, _, events, _, rfl, -, -, hmembers, -, -, hevents, -⟩ := h
  have hfunctions : List.Forall₂ (fun (source : Building.FunctionSource) (v : View .functions) =>
      List.Forall₂ find.Mentioned source.mentions (c.functionMentions v.record))
      (Building.functionSources source) (c.views (members.map Prod.fst)) :=
    forall₂_views
      (List.forall₂_map_right_iff.mpr (hmembers.imp fun _ _ => forall₂_functionMentions hfind))
  have hviews : List.Forall₂ (fun (source : EventSource) (v : View .events) =>
      List.Forall₂ find.Mentioned (source.type.toList.map .type) (v.record.type.toList.map .type))
      source.events (c.views events) := by
    refine forall₂_views (hevents.imp ?_)
    rintro source id ⟨type, documentation, hget, htype, -⟩
    exact ⟨_, hfind _ _ hget, Mention.forall₂_option_type htype⟩
  exact List.rel_append (List.rel_flatMap hfunctions fun _ _ h => h)
    (List.rel_flatMap hviews fun _ _ h => h)

theorem forall₂_structMentions {file : String} {source : StructSource} {r : TypedeclRecord}
    (h : source.StoredAs find file r) :
    List.Forall₂ find.Mentioned (source.fields.map fun field => .type field.type)
      (c.typedeclMentions r) := by
  obtain ⟨_, fields, rfl, -, hfields⟩ := h
  have hviews : List.Forall₂ (fun (source : StructFieldSource) (v : View .structFields) =>
      find.Mentioned (.type source.type) (.type v.record.type)) source.fields (c.views fields) := by
    refine forall₂_views (hfields.imp ?_)
    rintro source id ⟨type, documentation, hget, htype, -⟩
    exact ⟨_, hfind _ _ hget, .type htype⟩
  simpa [typedeclMentions, structFields, enumFields, views, optionView?, List.forall₂_map_left_iff,
    List.forall₂_map_right_iff] using hviews

theorem forall₂_enumMentions {file : String} {id : Id .typedecls} {source : EnumSource}
    {r : TypedeclRecord} (h : source.StoredAs find file id r) :
    List.Forall₂ find.Mentioned (source.fields.flatMap fun field => field.value.toList.map .value)
      (c.typedeclMentions r) := by
  obtain ⟨_, fields, rfl, -, hfields⟩ := h
  have hviews : List.Forall₂ (fun (source : EnumFieldSource) (v : View .enumFields) =>
      List.Forall₂ find.Mentioned (source.value.toList.map .value)
        (if v.record.isExplicit then [.value v.record.value] else [])) source.fields
        (c.views fields) := by
    refine forall₂_views (hfields.imp ?_)
    rintro source id ⟨value, documentation, hget, hvalue, -⟩
    refine ⟨_, hfind _ _ hget, ?_⟩
    cases hsource : source.value with
    | none => simp
    | some text => simpa [hsource] using Mention.Rel.value (hvalue text hsource)
  have hrow := List.rel_flatMap hviews fun _ _ h => h
  simpa [typedeclMentions, structFields, enumFields, views, optionView?] using hrow

theorem forall₂_functionPointerMentions {file : String} {source : FunctionPointerSource}
    {r : TypedeclRecord} (h : source.StoredAs find file r) :
    List.Forall₂ find.Mentioned
      (source.parameters.flatMap ParameterSource.mentions ++
        source.result.toList.flatMap ReturnSource.mentions)
      (c.typedeclMentions r) := by
  obtain ⟨_, function, parameters, result, rfl, hget, -, hparameters, hresult⟩ := h
  obtain ⟨f, hf, hfunction⟩ : ∃ f, c.get? function = some f ∧
      c.functionMentions f = c.parameterMentions parameters ++ result.mentions :=
    ⟨_, hfind _ _ hget, functionMentions_plain (a := { result }) rfl rfl rfl rfl rfl⟩
  simpa [typedeclMentions, structFields, enumFields, views, optionView?, view?_of_get? hf,
    hfunction] using
    List.rel_append (forall₂_parameterMentions hfind hparameters) (forall₂_returnMentions hresult)

theorem forall₂_variableMentions {file : String} {kind : VariableKind} {source : VariableSource}
    {id : Id .variables} (h : source.StoredAt find file kind id) :
    List.Forall₂ find.Mentioned (.type source.type :: source.value.toList.map .value)
      (c.targetMentions (.variableTarget id)) := by
  obtain ⟨type, value, documentation, hget, htype, hvalue, -⟩ := h
  rw [targetMentions, view?_of_get? (hfind _ _ hget), Option.toList_some, List.flatMap_singleton]
  exact .cons (.type htype) (Mention.forall₂_option_value hvalue)

theorem forall₂_targetMentions {file : String} {x : DeclarationSource} {target : DeclarationTarget}
    (h : x.StoredAt find file target) :
    List.Forall₂ find.Mentioned x.mentions (c.targetMentions target) := by
  cases x <;> cases target <;> try exact h.elim
  case declaredClass.classTarget =>
    obtain ⟨r, hr, h⟩ := h
    rw [targetMentions, view?_of_get? (hfind _ _ hr), Option.toList_some, List.flatMap_singleton]
    exact forall₂_classMentions hfind h
  case struct.typedeclTarget =>
    obtain ⟨r, hr, h⟩ := h
    rw [targetMentions, view?_of_get? (hfind _ _ hr), Option.toList_some, List.flatMap_singleton]
    exact forall₂_structMentions hfind h
  case enum.typedeclTarget =>
    obtain ⟨r, hr, h⟩ := h
    rw [targetMentions, view?_of_get? (hfind _ _ hr), Option.toList_some, List.flatMap_singleton]
    exact forall₂_enumMentions hfind h
  case alias.typedeclTarget =>
    obtain ⟨r, hr, documentation, base, rfl, -, h⟩ := h
    rw [targetMentions, view?_of_get? (hfind _ _ hr), Option.toList_some, List.flatMap_singleton]
    exact .cons (.type h) .nil
  case functionPointer.typedeclTarget =>
    obtain ⟨r, hr, h⟩ := h
    rw [targetMentions, view?_of_get? (hfind _ _ hr), Option.toList_some, List.flatMap_singleton]
    exact forall₂_functionPointerMentions hfind h
  case constant.variableTarget | global.variableTarget => exact forall₂_variableMentions hfind h

/-- The unit of a file mentions what the file does. The records of its own build are enough to
tell. -/
theorem forall₂_fileMentions {b : Build} (hr : b.Reproduced c) (hl : c.Lists b.owner)
    (hn : ∀ h, ((c.entries h).map Entry.name).Nodup) (hi : c.InStep)
    (hcovers : find.Covers c b.journal) :
    List.Forall₂ find.Mentioned b.source.mentions (c.fileMentions b.file) :=
  List.rel_flatMap (forall₂_declarations hr hl hn hi hcovers) fun _ _ h =>
    forall₂_targetMentions hfind h.2.2.2.stored

theorem exists_sharedMention {a : Building.FunctionSource} (h : a.SharesAt find)
    {m : WrittenMention} (hm : m ∈ a.sharedMentions) : ∃ m', find.Mentioned m m' := by
  cases a with
  | method source => cases hm
  | property source =>
    obtain ⟨⟨keys, hkeys⟩, values, hvalues⟩ := h
    exact exists_of_forall₂ (List.rel_append (forall₂_parameterMentions hfind hkeys)
      (forall₂_parameterMentions hfind hvalues)) m hm

/-- What the parameters of a property mention is stored even if no accessor leads to it. -/
theorem exists_mentioned {b : Build} (hr : b.Reproduced c) (hcovers : find.Covers c b.journal)
    {m : WrittenMention} (hm : m ∈ b.source.sharedMentions) : ∃ m', find.Mentioned m m' := by
  obtain ⟨source, hsource, hm⟩ := List.mem_flatMap.mp hm
  obtain ⟨a, ha, hm⟩ := List.mem_flatMap.mp hm
  have hx : DeclarationSource.declaredClass source ∈ b.source.declarations := by
    simp [FileSource.declarations, Option.mem_toList.mp hsource]
  obtain ⟨target, -, hbuilt⟩ := hr.stored _ hx
  exact exists_sharedMention hfind ((hbuilt find hcovers).checked.2 a ha) hm

end

end Catalog

/-- The unit of a parsed file mentions what the file does, in each state of a session. -/
theorem Database.mentions_of_moves {q : Progress} (h : Moves [] ⟨{}, []⟩ q) {b : Build}
    (hb : b ∈ q.catalog.builds) (hr : b.Reproduced q.catalog) {find : Lookup}
    (hfind : find.Within q.catalog) (hcovers : find.Covers q.catalog b.journal) :
    List.Forall₂ find.Mentioned b.source.mentions (q.catalog.fileMentions b.file) :=
  Catalog.forall₂_fileMentions hfind hr
    (h.listed sound_empty listed_empty b.owner (owner_mem_owners hb _))
    (Accounted.names_nodup (Moves.sound h sound_empty))
    (Accounted.inStep (Moves.sound h sound_empty)) hcovers

end InterfaceCatalog
