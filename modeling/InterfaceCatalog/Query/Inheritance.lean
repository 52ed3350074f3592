import InterfaceCatalog.Catalog.Basic

namespace InterfaceCatalog

namespace Catalog

def inherits (c : Catalog) (r : ClassRecord) : List (View .classes) :=
  c.views r.inherits

def baseClass? (c : Catalog) (r : ClassRecord) : Option (View .classes) :=
  (c.inherits r).head?

def unvisited (c : Catalog) (visited : List (Id .classes)) : List Handle :=
  (c.store.classes.entries.map (·.1)).filter fun h => !visited.contains ⟨h⟩

theorem length_filter_lt {α : Type} {p q : α → Bool} {l : List α} (hpq : ∀ x, q x → p x)
    {y : α} (hy : y ∈ l) (hp : p y) (hq : q y = false) :
    (l.filter q).length < (l.filter p).length := by
  induction l with
  | nil => simp at hy
  | cons x l ih =>
    have hle : (l.filter q).length ≤ (l.filter p).length := by
      simp only [← List.countP_eq_length_filter]
      exact List.countP_mono_left fun x _ => hpq x
    rcases List.mem_cons.mp hy with rfl | hl
    · rw [List.filter_cons_of_pos hp, List.filter_cons_of_neg (by simp [hq]), List.length_cons]
      omega
    · have := ih hl
      by_cases hx : q x
      · rw [List.filter_cons_of_pos hx, List.filter_cons_of_pos (hpq x hx), List.length_cons,
          List.length_cons]
        omega
      · rw [List.filter_cons_of_neg hx]
        by_cases hy : p x
        · rw [List.filter_cons_of_pos hy, List.length_cons]
          omega
        · rwa [List.filter_cons_of_neg hy]

theorem mem_entries_of_get? {α : Type} {a : Arena α} {h : Handle} {x : α} (hx : a.get? h = some x) :
    (h, x) ∈ a.entries := by
  unfold Arena.get? at hx
  split at hx
  · next slot hs =>
    split at hx
    · next hg =>
      obtain ⟨i, g⟩ := h
      simp only at hs hg hx
      have hmem : (slot, i) ∈ a.slots.toList.zipIdx := by
        rw [List.mk_mem_zipIdx_iff_getElem?]
        simpa using hs
      refine List.mem_filterMap.mpr ⟨(slot, i), hmem, ?_⟩
      simp [hx, hg]
    · simp at hx
  · simp at hx

theorem unvisited_lt {c : Catalog} {visited : List (Id .classes)} {v : View .classes}
    (hv : c.get? v.id = some v.record) (hn : v.id ∉ visited) :
    (c.unvisited (v.id :: visited)).length < (c.unvisited visited).length := by
  have hm := mem_entries_of_get? (a := c.store.classes) (h := v.id.handle) (x := v.record) hv
  refine length_filter_lt (y := v.id.handle) ?_ (List.mem_map.mpr ⟨_, hm, rfl⟩) ?_ ?_
  · intro h hh
    simp only [List.contains_cons, Bool.not_or, Bool.and_eq_true] at hh
    exact hh.2
  · simpa using hn
  · simp

/-- The walk over a stack of rows of parents, the innermost row first. Each row is what the walk has
left of the parents of a class. -/
def walkInheritance (c : Catalog) (visited : List (Id .classes))
    (stack : List (List (Id .classes))) : List (View .classes) :=
  match stack with
  | [] => []
  | [] :: stack => c.walkInheritance visited stack
  | (id :: row) :: stack =>
    match _h : c.get? id with
    | none => c.walkInheritance visited (row :: stack)
    | some record =>
      if _hv : id ∈ visited then c.walkInheritance visited (row :: stack)
      else ⟨id, record⟩ :: c.walkInheritance (id :: visited) (record.inherits :: row :: stack)
termination_by ((c.unvisited visited).length, stack.flatten.length + stack.length)
decreasing_by
  · refine Prod.Lex.right _ ?_
    simp only [List.flatten_cons, List.length_append, List.length_cons]
    omega
  · refine Prod.Lex.right _ ?_
    simp only [List.flatten_cons, List.length_append, List.length_cons]
    omega
  · refine Prod.Lex.right _ ?_
    simp only [List.flatten_cons, List.length_append, List.length_cons]
    omega
  · exact Prod.Lex.left _ _ (unvisited_lt (v := ⟨id, record⟩) _h _hv)

/-- The classes that a class inherits from, directly or not. -/
def inheritsFull (c : Catalog) (v : View .classes) : List (View .classes) :=
  c.walkInheritance [v.id] [v.record.inherits]

end Catalog

end InterfaceCatalog
