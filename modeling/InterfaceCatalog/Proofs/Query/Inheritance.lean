import InterfaceCatalog.Query.Inheritance
import Mathlib.Data.List.Nodup
import Mathlib.Logic.Relation

namespace InterfaceCatalog

namespace Catalog

variable {c : Catalog} {v w : View .classes} {visited row : List (Id .classes)}

theorem mem_views {t : Table} {ids : List (Id t)} {w : View t} :
    w ∈ c.views ids ↔ w.id ∈ ids ∧ c.view? w.id = some w := by
  rw [views, List.mem_filterMap]
  constructor
  · rintro ⟨id, hid, hview⟩
    obtain ⟨record, hrecord, rfl⟩ := Option.map_eq_some_iff.mp hview
    exact ⟨hid, hview⟩
  · exact fun h => ⟨w.id, h⟩

/-- The second class is a parent of the first one, and it is live. -/
def Inherits (c : Catalog) (v w : View .classes) : Prop :=
  w ∈ c.inherits v.record

/-- What was visited before and what was found since, the latest first. -/
def mark (visited : List (Id .classes)) (found : List (View .classes)) : List (Id .classes) :=
  (found.map View.id).reverse ++ visited

@[simp] theorem mark_nil : mark visited [] = visited := rfl

@[simp] theorem mark_cons (found : List (View .classes)) :
    mark visited (v :: found) = mark (v.id :: visited) found := by
  simp [mark]

theorem mark_append (found more : List (View .classes)) :
    mark visited (found ++ more) = mark (mark visited found) more := by
  simp [mark]

theorem mem_mark {found : List (View .classes)} {id : Id .classes} :
    id ∈ mark visited found ↔ id ∈ visited ∨ ∃ w ∈ found, w.id = id := by
  simp [mark, or_comm]

theorem mem_mark_of_mem {id : Id .classes} (h : id ∈ visited) (found : List (View .classes)) :
    id ∈ mark visited found :=
  mem_mark.mpr (.inl h)

theorem unvisited_mark (c : Catalog) (visited : List (Id .classes)) (found : List (View .classes)) :
    (c.unvisited (mark visited found)).length ≤ (c.unvisited visited).length := by
  unfold unvisited
  simp only [← List.countP_eq_length_filter]
  refine List.countP_mono_left fun h _ hh => ?_
  simp only [Bool.not_eq_true', List.contains_eq_mem, decide_eq_false_iff_not] at hh ⊢
  exact fun hmem => hh (mem_mark_of_mem hmem found)

/-- The recursive walk over a row of parents. It goes down into each parent that it meets for the
first time, and what it visits there counts as visited for the rest of the row. -/
def preorder (c : Catalog) (visited row : List (Id .classes)) : List (View .classes) :=
  match row with
  | [] => []
  | id :: row =>
    match _h : c.get? id with
    | none => c.preorder visited row
    | some record =>
      if _hv : id ∈ visited then c.preorder visited row
      else
        let below := c.preorder (id :: visited) record.inherits
        ⟨id, record⟩ :: below ++ c.preorder (mark (id :: visited) below) row
termination_by ((c.unvisited visited).length, row.length)
decreasing_by
  · exact Prod.Lex.right _ (Nat.lt_succ_self _)
  · exact Prod.Lex.right _ (Nat.lt_succ_self _)
  · exact Prod.Lex.left _ _ (unvisited_lt (v := ⟨id, record⟩) _h _hv)
  · exact Prod.Lex.left _ _
      (Nat.lt_of_le_of_lt (unvisited_mark c _ _) (unvisited_lt (v := ⟨id, record⟩) _h _hv))

@[simp] theorem preorder_nil : c.preorder visited [] = [] := by
  rw [preorder]

theorem preorder_cons (id : Id .classes) :
    c.preorder visited (id :: row) =
      match c.get? id with
      | none => c.preorder visited row
      | some record =>
        if id ∈ visited then c.preorder visited row
        else ⟨id, record⟩ :: (c.preorder (id :: visited) record.inherits ++
          c.preorder (mark (id :: visited) (c.preorder (id :: visited) record.inherits)) row) := by
  rw [preorder]
  split
  next hget => rw [hget]
  next record hget =>
    rw [hget]
    split <;> rfl

theorem preorder_stale {id : Id .classes} (hget : c.get? id = none) :
    c.preorder visited (id :: row) = c.preorder visited row := by
  rw [preorder_cons, hget]

theorem preorder_visited {id : Id .classes} (hv : id ∈ visited) :
    c.preorder visited (id :: row) = c.preorder visited row := by
  rw [preorder_cons]
  split
  next => rfl
  next => exact if_pos hv

theorem preorder_fresh {id : Id .classes} {record : ClassRecord} (hget : c.get? id = some record)
    (hv : id ∉ visited) :
    c.preorder visited (id :: row) = ⟨id, record⟩ :: (c.preorder (id :: visited) record.inherits ++
      c.preorder (mark (id :: visited) (c.preorder (id :: visited) record.inherits)) row) := by
  rw [preorder_cons, hget]
  exact if_neg hv

/-- A row is walked to its end before the stack below it, which continues with what was
visited on the way. -/
theorem walkInheritance_cons (stack : List (List (Id .classes))) :
    c.walkInheritance visited (row :: stack) =
      c.preorder visited row ++
        c.walkInheritance (mark visited (c.preorder visited row)) stack := by
  fun_induction preorder c visited row generalizing stack with
  | case1 visited => rw [walkInheritance, mark_nil, List.nil_append]
  | case2 visited id row hget ih =>
    rw [walkInheritance]
    split
    next => exact ih stack
    next record h => rw [hget] at h; cases h
  | case3 visited id row record hget hv ih =>
    rw [walkInheritance]
    split
    next => exact ih stack
    next => rw [dif_pos hv]; exact ih stack
  | case4 visited id row record hget hv below ihb ih =>
    rw [walkInheritance]
    split
    next h => rw [hget] at h; cases h
    next record' h =>
      cases hget.symm.trans h
      -- The rest of the row lies on the stack while the walk is below its first class.
      rw [dif_neg hv, ihb (row :: stack), ih stack]
      simp only [mark_append, mark_cons, List.cons_append, List.append_assoc]
      rfl

theorem mem_views_cons {t : Table} {ids : List (Id t)} {id : Id t} {w : View t}
    (hw : w ∈ c.views ids) : w ∈ c.views (id :: ids) :=
  mem_views.mpr ⟨List.mem_cons_of_mem _ (mem_views.mp hw).1, (mem_views.mp hw).2⟩

/-- What is found lies behind a parent of the row. -/
theorem exists_parent_of_mem_preorder (hw : w ∈ c.preorder visited row) :
    ∃ p ∈ c.views row, Relation.ReflTransGen c.Inherits p w := by
  fun_induction preorder c visited row with
  | case1 visited => cases hw
  | case2 visited id row hget ih =>
    obtain ⟨p, hp, hpath⟩ := ih hw
    exact ⟨p, mem_views_cons hp, hpath⟩
  | case3 visited id row record hget hv ih =>
    obtain ⟨p, hp, hpath⟩ := ih hw
    exact ⟨p, mem_views_cons hp, hpath⟩
  | case4 visited id row record hget hv below ihb ih =>
    rcases List.mem_append.mp hw with hw | hw
    · refine ⟨⟨id, record⟩, by simp [views, view?, hget], ?_⟩
      rcases List.mem_cons.mp hw with rfl | hw
      · exact .refl
      · obtain ⟨p, hp, hpath⟩ := ihb hw
        exact .head hp hpath
    · obtain ⟨p, hp, hpath⟩ := ih hw
      exact ⟨p, mem_views_cons hp, hpath⟩

/-- Only live classes are found. -/
theorem live_of_mem_preorder (hw : w ∈ c.preorder visited row) : c.view? w.id = some w := by
  obtain ⟨p, hp, hpath⟩ := exists_parent_of_mem_preorder hw
  cases hpath with
  | refl => exact (mem_views.mp hp).2
  | tail _ hstep => exact (mem_views.mp hstep).2

/-- Nothing is found that was visited before, and nothing is found twice. -/
theorem nodup_mark_preorder (hn : visited.Nodup) :
    (mark visited (c.preorder visited row)).Nodup := by
  fun_induction preorder c visited row with
  | case1 visited => exact hn
  | case2 visited id row hget ih => exact ih hn
  | case3 visited id row record hget hv ih => exact ih hn
  | case4 visited id row record hget hv below ihb ih =>
    have hbelow : (mark (id :: visited) below).Nodup := ihb (List.nodup_cons.mpr ⟨hv, hn⟩)
    rw [mark_append, mark_cons]
    exact ih hbelow

/-- Once a row is walked, all its classes and all parents of what was found are visited. -/
theorem visits_preorder :
    (∀ p ∈ c.views row, p.id ∈ mark visited (c.preorder visited row)) ∧
      ∀ w ∈ c.preorder visited row, ∀ p, c.Inherits w p →
        p.id ∈ mark visited (c.preorder visited row) := by
  fun_induction preorder c visited row with
  | case1 visited => simp [views]
  | case2 visited id row hget ih =>
    refine ⟨fun p hp => ih.1 p ?_, ih.2⟩
    simpa [views, view?, hget] using hp
  | case3 visited id row record hget hv ih =>
    refine ⟨fun p hp => ?_, ih.2⟩
    rcases (show p = ⟨id, record⟩ ∨
      p ∈ c.views row by simpa [views, view?, hget] using hp) with rfl | hp
    · exact mem_mark_of_mem hv _
    · exact ih.1 p hp
  | case4 visited id row record hget hv below ihb ih =>
    obtain ⟨hparents, hfound⟩ := ihb
    rw [mark_append, mark_cons]
    have hkeep {x : Id .classes} (hx : x ∈ mark (id :: visited) below) :
        x ∈ mark (mark (id :: visited) below) (c.preorder (mark (id :: visited) below) row) :=
      mem_mark_of_mem hx _
    refine ⟨fun p hp => ?_, fun w hw p hp => ?_⟩
    · rcases (show p = ⟨id, record⟩ ∨
        p ∈ c.views row by simpa [views, view?, hget] using hp) with rfl | hp
      · exact hkeep (mem_mark_of_mem List.mem_cons_self _)
      · exact ih.1 p hp
    · rcases List.mem_append.mp hw with hw | hw
      · rcases List.mem_cons.mp hw with rfl | hw
        · exact hkeep (hparents p hp)
        · exact hkeep (hfound w hw p hp)
      · exact ih.2 w hw p hp

theorem inheritsFull_eq_preorder (c : Catalog) (v : View .classes) :
    c.inheritsFull v = c.preorder [v.id] v.record.inherits := by
  rw [inheritsFull, walkInheritance_cons, walkInheritance, List.append_nil]

theorem id_notMem_of_mem_preorder (hn : visited.Nodup) (hw : w ∈ c.preorder visited row) :
    w.id ∉ visited := by
  have hnodup : (mark visited (c.preorder visited row)).Nodup := nodup_mark_preorder hn
  have hmem : w.id ∈ ((c.preorder visited row).map View.id).reverse :=
    List.mem_reverse.mpr (List.mem_map.mpr ⟨w, hw, rfl⟩)
  exact fun hv => (List.nodup_append.mp hnodup).2.2 _ hmem _ hv rfl

/-- A live class leads to nothing but itself and what the walk over its parents finds. -/
theorem mem_preorder_of_inherits (hv : c.view? v.id = some v)
    (hpath : Relation.ReflTransGen c.Inherits v w) :
    w = v ∨ w ∈ c.preorder [v.id] v.record.inherits := by
  have hparents (p : View .classes) (hp : c.Inherits v p) :
      p.id ∈ mark [v.id] (c.preorder [v.id] v.record.inherits) := visits_preorder.1 p hp
  induction hpath with
  | refl => exact .inl rfl
  | @tail u w _ hstep ih =>
    have hlive : c.view? w.id = some w := (mem_views.mp hstep).2
    have hmark : w.id ∈ mark [v.id] (c.preorder [v.id] v.record.inherits) := by
      rcases ih with rfl | hu
      · exact hparents w hstep
      · exact visits_preorder.2 u hu w hstep
    -- The visited handles resolve to one class each.
    rcases mem_mark.mp hmark with hid | ⟨x, hx, hid⟩
    · rw [List.mem_singleton.mp hid, hv] at hlive
      exact .inl (Option.some.inj hlive).symm
    · rw [← hid, live_of_mem_preorder hx] at hlive
      exact .inr (Option.some.inj hlive ▸ hx)

/-- The walk lists what a live class leads to through live parents, each class once and the
class itself not, in the order of the recursive walk that visits the parents of each class as
they are declared. -/
theorem inheritsFull_closure (c : Catalog) (v : View .classes) (hv : c.view? v.id = some v) :
    c.inheritsFull v = c.preorder [v.id] v.record.inherits ∧
      (∀ w, w ∈ c.inheritsFull v ↔ w.id ≠ v.id ∧ Relation.ReflTransGen c.Inherits v w) ∧
      ((c.inheritsFull v).map View.id).Nodup := by
  have hsingle : [v.id].Nodup := List.nodup_cons.mpr ⟨List.not_mem_nil, List.nodup_nil⟩
  rw [inheritsFull_eq_preorder]
  refine ⟨rfl, fun w => ⟨fun hw => ⟨fun hid => ?_, ?_⟩, fun ⟨hne, hpath⟩ => ?_⟩, ?_⟩
  · exact id_notMem_of_mem_preorder hsingle hw (List.mem_singleton.mpr hid)
  · obtain ⟨p, hp, hpath⟩ := exists_parent_of_mem_preorder hw
    exact .head hp hpath
  · exact (mem_preorder_of_inherits hv hpath).resolve_left fun h => hne (congrArg View.id h)
  · have hnodup : (mark [v.id] (c.preorder [v.id] v.record.inherits)).Nodup :=
      nodup_mark_preorder hsingle
    exact List.nodup_reverse.mp (List.nodup_append.mp hnodup).1

def classView (index : Nat) (name : String) (inherits : List (Id .classes)) : View .classes :=
  ⟨⟨index, 0⟩, { fullName := name, file := "a.eo", kind := .regular, inherits := inherits }⟩

/-- It repeats a parent, and its last parent is a stale handle. -/
def tangledClass : View .classes := classView 0 "A" [⟨0, 0⟩, ⟨1, 0⟩, ⟨2, 0⟩, ⟨1, 0⟩, ⟨1, 7⟩]

def tangledParent : View .classes := classView 1 "B" [⟨1, 0⟩, ⟨2, 0⟩, ⟨0, 0⟩]

def plainParent : View .classes := classView 2 "C" []

def tangledCatalog : Catalog :=
  ((({} : Catalog).insert tangledClass.record).insert tangledParent.record).insert
    plainParent.record

/-- The third class is met below the second one, before the first one comes to it. -/
theorem inheritsFull_tangled :
    tangledCatalog.inheritsFull tangledClass = [tangledParent, plainParent] ∧
      Relation.ReflTransGen tangledCatalog.Inherits tangledClass plainParent ∧
      tangledClass ∉ tangledCatalog.inheritsFull tangledClass := by
  have hparent : tangledCatalog.get? (t := .classes) ⟨1, 0⟩ = some tangledParent.record := rfl
  have hplain : tangledCatalog.get? (t := .classes) ⟨2, 0⟩ = some plainParent.record := rfl
  have hstale : tangledCatalog.get? (t := .classes) ⟨1, 7⟩ = none := rfl
  obtain ⟨hpreorder, hmem, -⟩ := inheritsFull_closure tangledCatalog tangledClass rfl
  have hlist : tangledCatalog.inheritsFull tangledClass = [tangledParent, plainParent] := by
    rw [hpreorder]
    simp [preorder_visited, preorder_fresh hparent, preorder_fresh hplain, preorder_stale hstale,
      tangledClass, tangledParent, plainParent, classView]
  refine ⟨hlist, ((hmem plainParent).mp (by simp [hlist])).2, fun hself => ?_⟩
  exact ((hmem tangledClass).mp hself).1 rfl

end Catalog

end InterfaceCatalog
