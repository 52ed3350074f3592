import InterfaceCatalog.Proofs.Database.Reproduction
import InterfaceCatalog.Proofs.Database.Undoing
import InterfaceCatalog.Proofs.Query.Inheritance

namespace InterfaceCatalog

namespace Catalog

/-- A function of a class. It is of the kind of the accessors that it has. -/
structure FunctionOf (c : Catalog) (v : View .classes) (f : View .functions) : Prop where
  owner : c.optionView? f.record.classId = some v
  kind : f.record.kind ∈ [.property, .getter, .setter, .method]
  property : f.record.kind = .property ↔ f.record.getter.isSome ∧ f.record.setter.isSome
  getter : f.record.kind = .getter ↔ f.record.getter.isSome ∧ f.record.setter = none
  setter : f.record.kind = .setter ↔ f.record.getter = none ∧ f.record.setter.isSome
  method : f.record.kind = .method ↔ f.record.method.isSome

/-- The implement that a class gives to a function of its own. -/
structure ImplicitFor (c : Catalog) (v : View .classes) (f : View .functions)
    (i : View .implements) : Prop where
  found : c.optionView? f.record.implement = some i
  function_eq : i.record.function = f.id
  owner : c.view? i.record.classId = some v
  implementing : c.view? i.record.implementingClass = some v
  getter : i.record.coversGetter = f.record.isReadable
  setter : i.record.coversSetter = f.record.isWritable

/-- A member names the class of a function, and goes by the names of both. -/
def GoesBy (c : Catalog) (owner : Id .classes) (fullName : String) (f : View .functions) : Prop :=
  ∃ w, c.view? owner = some w ∧ c.optionView? f.record.classId = some w ∧
    fullName = w.record.fullName ++ "." ++ f.record.name

/-- The functions, the implements and the constructors of a class agree. The implements of its own
functions come first, in the same order. -/
structure MembersAgree (c : Catalog) (v : View .classes) : Prop where
  names : ((c.functions v.record .unresolved).map fun f => f.record.name).Nodup
  functions : ∀ f ∈ c.functions v.record .unresolved, c.FunctionOf v f
  implicit : ∃ implicit explicit, c.views v.record.implements = implicit ++ explicit ∧
    List.Forall₂ (c.ImplicitFor v) (c.functions v.record .unresolved) implicit
  implements : ∀ i ∈ c.views v.record.implements, ∀ f,
    c.implementFunction? i.record .unresolved = some f →
    c.GoesBy i.record.classId i.record.fullName f ∧ i.record.Fits f.record
  constructors : ∀ k ∈ c.views v.record.constructors, ∀ f, c.view? k.record.function = some f →
    c.GoesBy k.record.classId k.record.fullName f

variable {c : Catalog}

theorem functions_unresolved (c : Catalog) (r : ClassRecord) :
    c.functions r .unresolved = c.views r.functions :=
  List.filter_eq_self.mpr fun _ _ => rfl

theorem views_append {t : Table} (ids ids' : List (Id t)) :
    c.views (ids ++ ids') = c.views ids ++ c.views ids' :=
  List.filterMap_append

/-- What is known of the records of a row of members is known of their views. -/
theorem exists_rows {α : Type} {members : List (Id .functions × Id .implements)} {as : List α}
    {P : α → View .functions → View .implements → Prop}
    (h : List.Forall₂ (fun a m => ∃ f i, c.view? m.1 = some f ∧ c.view? m.2 = some i ∧ P a f i)
      as members) :
    ∃ rows : List (View .functions × View .implements),
      c.views (members.map Prod.fst) = rows.map Prod.fst ∧
      c.views (members.map Prod.snd) = rows.map Prod.snd ∧
      List.Forall₂ (fun a row => P a row.1 row.2) as rows := by
  induction h with
  | nil => exact ⟨[], rfl, rfl, .nil⟩
  | @cons a m as members hm _ ih =>
    obtain ⟨f, i, hf, hi, hP⟩ := hm
    obtain ⟨rows, hfunctions, himplements, hrows⟩ := ih
    refine ⟨(f, i) :: rows, ?_, ?_, .cons hP hrows⟩
    · rw [List.map_cons, views, List.filterMap_cons_some hf]
      exact congrArg (f :: ·) hfunctions
    · rw [List.map_cons, views, List.filterMap_cons_some hi]
      exact congrArg (i :: ·) himplements

/-- A function that is stored as it is written is one of its class, and has an implement there. -/
theorem functionOf_of_storedAt {v : View .classes} (hv : c.view? v.id = some v) {className : String}
    {source : Building.FunctionSource} {member : Id .functions × Id .implements}
    (h : source.StoredAt c.records v.id className member) (husable : source.IsUsable) :
    ∃ f i, c.view? member.1 = some f ∧ c.view? member.2 = some i ∧ f.record.name = source.name ∧
      c.FunctionOf v f ∧ c.ImplicitFor v f i := by
  cases source with
  | method source =>
    obtain ⟨parameters, result, documentation, hf, hi, -⟩ := h
    refine ⟨_, _, view?_of_get? hf, view?_of_get? hi, rfl, ⟨hv, ?_, ?_, ?_, ?_, ?_⟩,
      ⟨view?_of_get? hi, rfl, hv, hv, rfl, rfl⟩⟩
    all_goals simp
  | property source =>
    obtain ⟨getter, setter, _, _, _, hf, hi, hgetter, hsetter, -⟩ := h
    have hreadable : getter.isSome = source.getter.isSome := isSome_eq_of_rel hgetter
    have hwritable : setter.isSome = source.setter.isSome := isSome_eq_of_rel hsetter
    refine ⟨_, _, view?_of_get? hf, view?_of_get? hi, rfl, ?_,
      ⟨view?_of_get? hi, rfl, hv, hv, hreadable.symm, hwritable.symm⟩⟩
    have husable : getter.isSome ∨ setter.isSome := by rwa [hreadable, hwritable]
    have hgone : source.getter.isNone = getter.isNone := by
      simp only [← Option.not_isSome, hreadable]
    have hgone' : source.setter.isNone = setter.isNone := by
      simp only [← Option.not_isSome, hwritable]
    refine ⟨hv, ?_, ?_, ?_, ?_, ?_⟩
    all_goals
      simp only [hgone, hgone']
      cases getter <;> cases setter <;> simp at husable ⊢

/-- Between two requests a member that bears the name of a class goes by it: a function is not there
without its class. -/
theorem Bears.goesBy (hs : Database.Settled c) (hm : c.Matched) {owner : Id .classes}
    {fullName : String} {id : Id .functions} {f : View .functions} (hf : c.view? id = some f)
    (hb : c.Bears owner fullName f.record) : c.GoesBy owner fullName f := by
  have hget := get?_of_view? hf
  obtain ⟨o, ho, hid⟩ := (Accounted.live_iff hs id).mp (live_of_get? hget)
  obtain ⟨b, hbuild, rfl⟩ := List.mem_map.mp ho
  obtain ⟨f', hf', howner⟩ := hm.kin b hbuild id hid
  cases hget.symm.trans hf'
  obtain ⟨r, hr⟩ := exists_of_live (Accounted.live hs ho (howner owner hb.classId_eq))
  refine ⟨⟨owner, r⟩, view?_of_get? hr, ?_, hb.fullName_eq r hr⟩
  rw [hb.classId_eq]
  exact view?_of_get? hr

theorem membersAgree_of_storedAs (hs : Database.Settled c) (hm : c.Matched) {v : View .classes}
    (hv : c.view? v.id = some v) {file : String} {source : ClassSource}
    (hstored : source.StoredAs c.records file v.id v.record) (hw : source.WellFormed) :
    c.MembersAgree v := by
  obtain ⟨documentation, inherits, members, explicit, constructors, events, parts, hrecord, -, -,
    hmembers, -⟩ := hstored
  have hfunctions : v.record.functions = members.map Prod.fst := by rw [hrecord]
  have himplements : v.record.implements = members.map Prod.snd ++ explicit := by rw [hrecord]
  have hfound :=
    forall₂_imp_mem hmembers fun a ha m _ h => functionOf_of_storedAt hv h (hw.usable a ha)
  obtain ⟨rows, hfs, his, hrows⟩ := exists_rows hfound
  rw [← hfunctions, ← functions_unresolved] at hfs
  have hrow : ∀ row ∈ rows, c.FunctionOf v row.1 ∧ c.ImplicitFor v row.1 row.2 :=
    forall_mem_of_forall₂ (hrows.imp fun _ _ h => h.2)
  refine ⟨?_, ?_, ⟨rows.map Prod.snd, c.views explicit, ?_, ?_⟩, fun i hi f hf => ?_,
    fun k hk f hf => ?_⟩
  · have hnames : List.Forall₂ (· = ·)
      ((Building.functionSources source).map Building.FunctionSource.name)
        (rows.map fun row => row.1.record.name) :=
      List.forall₂_map_left_iff.mpr
        (List.forall₂_map_right_iff.mpr (hrows.imp fun _ _ h => h.1.symm))
    rw [List.forall₂_eq_eq_eq] at hnames
    rw [hfs, List.map_map]
    exact hnames ▸ hw.nodup
  · rw [hfs]
    exact List.forall_mem_map.mpr fun row hmem => (hrow row hmem).1
  · rw [himplements, views_append, his]
  · rw [hfs, List.forall₂_map_left_iff, List.forall₂_map_right_iff, List.forall₂_same]
    exact fun row hmem => (hrow row hmem).2
  · have hfunction : c.view? i.record.function = some f := hf
    have hget := get?_of_view? (mem_views.mp hi).2
    have hfits := hm.fits i.id i.record hget f.record (get?_of_view? hfunction)
    exact hfits.imp_left (Bears.goesBy hs hm hfunction)
  · have hget := get?_of_view? (mem_views.mp hk).2
    exact Bears.goesBy hs hm hf (hm.fits k.id k.record hget f.record (get?_of_view? hf))

end Catalog

namespace Database

/-- A class that is listed for a file is stored as some well-formed source describes it. -/
theorem Reachable.class_listed {db : Database} (h : db.Reachable) {file : String}
    {v : View .classes} (hv : v ∈ db.catalog.listAll .classes (some file)) :
    db.catalog.view? v.id = some v ∧
      ∃ source : ClassSource, source.StoredAs db.catalog.records file v.id v.record ∧
        source.WellFormed := by
  rw [(Accounted.inStep h.settled).listAll_file] at hv
  obtain ⟨hid, hview⟩ := Catalog.mem_views.mp hv
  obtain ⟨e, he, heq⟩ := List.mem_map.mp hid
  obtain ⟨hmem, hfile⟩ := List.mem_filter.mp he
  have hfile : e.file = file := by simpa using hfile
  subst hfile
  obtain ⟨o, ho, hfile, hregistered, -⟩ := Accounted.owner_of_entry h.settled .classes e hmem
  obtain ⟨b, hb, rfl⟩ := List.mem_map.mp ho
  have hreproduced := h.told.reproduced b hb
  have hchange : Change.registered .classes e.name ∈ b.source.changes := by
    rw [← hreproduced.names]
    exact List.mem_reverse.mpr (List.mem_filter.mpr ⟨hregistered, rfl⟩)
  obtain ⟨source, hsource, hname⟩ := FileSource.class_mem_names_iff.mp
    ((FileSource.registered_mem_changes_iff (by decide)).mp hchange)
  have hx : DeclarationSource.declaredClass source ∈ b.source.declarations := by
    simp [FileSource.declarations, Option.mem_def.mp hsource]
  obtain ⟨target, ⟨id, kind, id', -, htarget, hentered, -⟩, hbuiltAt⟩ := hreproduced.stored _ hx
  obtain ⟨hstored, hchecked⟩ := hbuiltAt db.catalog.records fun _ _ _ hget => hget
  cases htarget
  have hentry := hentered.entry_eq (Accounted.names_nodup h.settled .classes) hmem hname.symm
  have hid : id = v.id := by rw [← heq, hentry]
  subst hid
  obtain ⟨r, hr, hstored⟩ := hstored
  cases hr.symm.trans (get?_of_view? hview)
  exact ⟨hview, source, hfile ▸ hstored, hchecked.1⟩

/-- The members of every class of a parsed file agree, unless some slot was freed so often that its
generation started again. -/
theorem Lived.members_agree {db : Database} {undone : List Change} (h : db.Lived undone)
    (hb : FreesBounded undone) {file : String} {v : View .classes}
    (hv : v ∈ db.catalog.listAll .classes (some file)) : db.catalog.MembersAgree v := by
  obtain ⟨hview, source, hstored, hw⟩ := h.reachable.class_listed hv
  exact Catalog.membersAgree_of_storedAs h.reachable.settled (h.faithful hb).matched
    hview hstored hw

/-- A class that implements its own functions once more. Read from another text it has a property
that cannot be used. -/
def implementingReader : SourceReader := fun _ text =>
  .ok { declaredClass := some {
    name := "A", methods := [{ name := "m" }]
    properties := [{ name := "p", getter := some { pureVirtual := true }, setter := some {} },
      { name := "q", getter := if text = "a" then some {} else none }]
    implements := [{ name := "A.p", setter := true, empty := true }, { name := ".q", auto := true },
      { name := ".m" }]
    constructors := [{ name := ".m" }] } }

def implementingDatabase : Database :=
  { cyclicDatabase with reader := implementingReader }

def failingDisk : Disk :=
  { cyclicDisk with root := .directory [(encodeUtf8 "a.eo", .file (encodeUtf8 "c"))] }

def implementingFailed : Database :=
  (implementingDatabase.parse failingDisk "a.eo").2

def implementingParsed : Database :=
  (implementingFailed.parse cyclicDisk "a.eo").2

def implementingUndone : List Change :=
  implementingDatabase.parseUndone failingDisk "a.eo" ++ implementingFailed.parseUndone
    cyclicDisk "a.eo"

/-- The slots that the failed build has freed are used again by the second one. -/
theorem members_agree_implementing :
    implementingParsed.Lived implementingUndone ∧ FreesBounded implementingUndone ∧
      ∃ v ∈ implementingParsed.catalog.listAll .classes (some "a.eo"), v.id.handle = ⟨0, 1⟩ ∧
        (implementingParsed.catalog.views v.record.implements).map (fun i =>
          (i.record.fullName, i.record.coversGetter, i.record.coversSetter)) =
          [("A.m", false, false), ("A.p", true, true), ("A.q", true, false), ("A.p", false, true),
            ("A.q", true, false), ("A.m", false, false)] ∧
        implementingParsed.catalog.MembersAgree v := by
  have hlived : implementingParsed.Lived implementingUndone :=
    .parse cyclicDisk "a.eo" (.parse failingDisk "a.eo" (scanned_lived implementingReader))
  have hlength : implementingUndone.length = 8 := by decide +kernel
  have hbounded : FreesBounded implementingUndone := fun _ _ =>
    Nat.lt_of_le_of_lt (hlength ▸ List.countP_le_length) (by decide)
  have hclasses : (implementingParsed.catalog.listAll .classes (some "a.eo")).map
      (fun v : View .classes =>
      (v.id.handle, (implementingParsed.catalog.views v.record.implements).map fun i =>
        (i.record.fullName, i.record.coversGetter, i.record.coversSetter))) =
      [(⟨0, 1⟩,
        [("A.m", false, false), ("A.p", true, true), ("A.q", true, false), ("A.p", false, true),
          ("A.q", true, false), ("A.m", false, false)])] := by decide +kernel
  obtain ⟨v, hlisted, hv⟩ := List.map_eq_singleton_iff.mp hclasses
  obtain ⟨hhandle, himplements⟩ := Prod.mk.inj hv
  have hmem : v ∈ implementingParsed.catalog.listAll .classes (some "a.eo") :=
    hlisted ▸ List.mem_singleton_self v
  exact ⟨hlived, hbounded, v, hmem, hhandle, himplements, hlived.members_agree hbounded hmem⟩

end Database

end InterfaceCatalog
