import InterfaceCatalog.Proofs.Build.Listing
import InterfaceCatalog.Query.Lookup

namespace InterfaceCatalog

namespace Catalog

variable {c : Catalog}

theorem views_cons {t : Table} {id : Id t} {v : View t} (hv : c.view? id = some v)
    (ids : List (Id t)) : c.views (id :: ids) = v :: c.views ids :=
  List.filterMap_cons_some hv

/-- What is said of the records under some handles is said of the views of them. -/
theorem forall₂_views {α : Type} {t : Table} {R : α → View t → Prop} {xs : List α}
    {ids : List (Id t)}
    (h : List.Forall₂ (fun x id => ∃ r, c.get? id = some r ∧ R x ⟨id, r⟩) xs ids) :
    List.Forall₂ R xs (c.views ids) := by
  induction h with
  | nil => exact .nil
  | @cons x id xs ids hx _ ih =>
    obtain ⟨r, hr, hx⟩ := hx
    rw [views_cons (by rw [view?, hr, Option.map_some])]
    exact .cons hx ih

theorem InStep.listAll (hs : c.InStep) (h : Heading) :
    c.listAll h none = c.views ((c.entries h).map Entry.id) :=
  congrArg c.views (hs h).order

theorem InStep.listAll_file (hs : c.InStep) (h : Heading) (file : String) :
    c.listAll h (some file) = c.views ((c.fileEntries h file).map Entry.id) :=
  congrArg c.views ((hs h).rows file)

theorem listFile_of_scope (h : Heading) {scope : Option String} {file : String}
    (hs : ∀ f ∈ scope, f = file) : c.listFile h scope file = c.listAll h (some file) := by
  refine if_pos ?_
  simpa [Option.all_eq_true] using hs

theorem listFile_of_ne (h : Heading) {file other : String} (hne : other ≠ file) :
    c.listFile h (some file) other = [] :=
  if_neg (by simpa using hne.symm)

/-- The part of a record that its entry repeats. -/
def entryOf (h : Heading) (v : View h.table) : Entry h.table :=
  ⟨h.fullName v.record, h.file v.record, v.id⟩

theorem entryOf_eq {h : Heading} {e : Entry h.table} {role : Role}
    (hl : c.label? e.id = some ⟨e.name, e.file, role⟩) :
    ∃ v, c.view? e.id = some v ∧ entryOf h v = e := by
  obtain ⟨r, hr, hl⟩ := Option.bind_eq_some_iff.mp hl
  refine ⟨⟨e.id, r⟩, by rw [view?, hr, Option.map_some], ?_⟩
  suffices h.fullName r = e.name ∧ h.file r = e.file by rw [entryOf, this.1, this.2]
  cases h with
  | classes | declarations =>
    simp only [label, Option.some.injEq, Label.mk.injEq] at hl
    exact ⟨hl.1, hl.2.1⟩
  | structs | enums | aliases | constants | globals =>
    obtain ⟨k, -, hl⟩ := Option.map_eq_some_iff.mp hl
    rw [Label.mk.injEq] at hl
    exact ⟨hl.1, hl.2.1⟩

namespace Named

variable (hn : c.Named) {h : Heading}

include hn

theorem view_of_entry {e : Entry h.table} (he : e ∈ c.entries h) :
    ∃ v, c.view? e.id = some v ∧ entryOf h v = e := by
  obtain ⟨role, hl⟩ := hn h e he
  exact entryOf_eq hl

/-- Every entry leads to a view, which is told by it. -/
theorem map_entryOf_views {es : List (Entry h.table)} (hes : es ⊆ c.entries h) :
    (c.views (es.map Entry.id)).map (entryOf h) = es := by
  induction es with
  | nil => rfl
  | cons e es ih =>
    obtain ⟨v, hv, he⟩ := hn.view_of_entry (hes List.mem_cons_self)
    rw [List.map_cons, views_cons hv, List.map_cons, he]
    exact congrArg (e :: ·) (ih fun e' he' => hes (List.mem_cons_of_mem _ he'))

theorem views_filter {es : List (Entry h.table)} (hes : es ⊆ c.entries h) (file : String) :
    c.views ((es.filter fun e => e.file = file).map Entry.id) =
      (c.views (es.map Entry.id)).filter fun v => h.file v.record = file := by
  induction es with
  | nil => rfl
  | cons e es ih =>
    obtain ⟨v, hv, he⟩ := hn.view_of_entry (hes List.mem_cons_self)
    have hfile : h.file v.record = e.file := congrArg Entry.file he
    have hrest := ih fun e' he' => hes (List.mem_cons_of_mem _ he')
    rw [List.map_cons, views_cons hv]
    by_cases hf : e.file = file
    · rw [List.filter_cons_of_pos (by simpa using hf),
        List.filter_cons_of_pos (by simpa [hfile] using hf),
        List.map_cons, views_cons hv, hrest]
    · rw [List.filter_cons_of_neg (by simpa using hf),
        List.filter_cons_of_neg (by simpa [hfile] using hf),
        hrest]

end Named

end Catalog

end InterfaceCatalog
