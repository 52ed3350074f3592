import InterfaceCatalog.Proofs.Arena
import Mathlib.Data.List.Count

namespace InterfaceCatalog

namespace Arena

inductive Event where
  | issued (h : Handle)
  | freed (h : Handle)
  deriving DecidableEq

variable {α : Type}

/-- The second arena comes from the first one by the events, newest first. -/
inductive History : Arena α → List Event → Arena α → Prop
  | refl (a : Arena α) : History a [] a
  | insert {a b : Arena α} {es : List Event} (h : History a es b) (item : α) :
      History a (.issued b.next :: es) (b.insert item)
  | modify {a b : Arena α} {es : List Event} (h : History a es b) (k : Handle) (f : α → α) :
      History a es (b.modify k f)
  | remove {a b : Arena α} {es : List Event} (h : History a es b) {k : Handle}
      (live : b.contains k = true) :
      History a (.freed k :: es) (b.remove k)

theorem History.trans {a b c : Arena α} {es es' : List Event} (h : History a es b)
    (h' : History b es' c) : History a (es' ++ es) c := by
  induction h' with
  | refl => exact h
  | insert _ item ih => exact ih.insert item
  | modify _ k f ih => exact ih.modify k f
  | remove _ live ih => exact ih.remove live

def Event.frees (i : Nat) : Event → Bool
  | .issued _ => false
  | .freed h => h.index = i

/-- How often a slot was freed. -/
def frees (es : List Event) (i : Nat) : Nat :=
  es.countP (Event.frees i)

@[simp] theorem frees_issued (h : Handle) (es : List Event) (i : Nat) :
    frees (.issued h :: es) i = frees es i := by
  simp [frees, Event.frees]

theorem frees_freed (h : Handle) (es : List Event) (i : Nat) :
    frees (.freed h :: es) i = frees es i + if h.index = i then 1 else 0 := by
  simp [frees, Event.frees, List.countP_cons]

/-- No slot was freed so often that its generation started again. -/
def Bounded (es : List Event) : Prop :=
  ∀ i, frees es i < UInt32.size

theorem Bounded.of_append {es es' : List Event} (h : Bounded (es' ++ es)) : Bounded es := by
  intro i
  have hi := h i
  rw [frees, List.countP_append] at hi
  exact Nat.lt_of_le_of_lt (Nat.le_add_left _ _) hi

theorem Bounded.of_cons {e : Event} {es : List Event} (h : Bounded (e :: es)) : Bounded es :=
  Bounded.of_append (List.singleton_append ▸ h)

/-- The generation of a slot, which begins with that of a slot that is not there yet. -/
def age (a : Arena α) (i : Nat) : Nat :=
  match a.slots[i]? with
  | some slot => slot.generation.toNat
  | none => 0

theorem age_of_slot {a : Arena α} {i : Nat} {slot : Slot α} (h : a.slots[i]? = some slot) :
    a.age i = slot.generation.toNat := by
  rw [age, h]

theorem age_of_contains {a : Arena α} {h : Handle} (hl : a.contains h = true) :
    a.age h.index = h.generation.toNat := by
  obtain ⟨x, hs⟩ := contains_iff.mp hl
  exact age_of_slot hs

theorem age_next {a : Arena α} (wf : a.WellFormed) :
    a.age a.next.index = a.next.generation.toNat := by
  rcases slot_next wf with ⟨-, hn⟩ | ⟨i, rest, -, hi, hs⟩
  · simp [age, hn]
  · rw [hi, age_of_slot hs]

theorem not_contains_next {a : Arena α} (wf : a.WellFormed) : a.contains a.next = false := by
  simp [contains, get?_next wf]

theorem contains_insert {a : Arena α} (wf : a.WellFormed) (item : α) (h : Handle) :
    (a.insert item).contains h = true ↔ h = a.next ∨ a.contains h = true := by
  by_cases hn : h = a.next
  · simp [contains, hn, get?_insert_next wf]
  · simp [contains, hn, get?_insert_of_ne wf item hn]

theorem age_insert (a : Arena α) (item : α) (i : Nat) : (a.insert item).age i = a.age i := by
  cases hv : a.vacant with
  | nil =>
    simp only [age, insert, hv, Array.getElem?_push]
    by_cases hi : i = a.slots.size
    · simp [hi]
    · simp [hi]
  | cons j rest =>
    simp only [age, insert, hv, Array.getElem?_modify]
    by_cases hj : j = i
    · cases a.slots[i]? <;> simp [hj]
    · simp [hj]

theorem contains_modify (a : Arena α) (k : Handle) (f : α → α) (h : Handle) :
    (a.modify k f).contains h = a.contains h := by
  by_cases hk : h = k
  · rw [hk, contains, get?_modify_self, contains, Option.isSome_map]
  · rw [contains, get?_modify_of_ne a f hk, contains]

theorem age_modify (a : Arena α) (k : Handle) (f : α → α) (i : Nat) :
    (a.modify k f).age i = a.age i := by
  unfold modify
  split
  · simp only [age, Array.getElem?_modify]
    by_cases hk : k.index = i
    · cases a.slots[i]? <;> simp [hk]
    · simp [hk]
  · rfl

theorem contains_remove (a : Arena α) (k h : Handle) :
    (a.remove k).contains h = true ↔ h ≠ k ∧ a.contains h = true := by
  by_cases hk : h = k
  · simp [contains, hk, get?_remove_self]
  · simp [contains, hk, get?_remove_of_ne a hk]

/-- A slot that is freed becomes older, unless its generation starts again. -/
theorem age_remove {a : Arena α} {k : Handle} (live : a.contains k = true)
    (hb : a.age k.index + 1 < UInt32.size) (i : Nat) :
    (a.remove k).age i = a.age i + if k.index = i then 1 else 0 := by
  obtain ⟨x, hs⟩ := contains_iff.mp live
  simp only [age, remove, live, if_true, Array.getElem?_modify]
  by_cases hk : k.index = i
  · rw [age_of_slot hs] at hb
    subst hk
    simp only [hs, if_true, Option.map_some, UInt32.toNat_add]
    exact Nat.mod_eq_of_lt hb
  · simp [hk]

/-- What an arena tells about its history. A slot is as old as it was often freed; the handles of
lower ages were issued and freed, and one of its own age was issued if it finds an item. -/
structure Records (es : List Event) (a : Arena α) : Prop where
  wellFormed : a.WellFormed
  age_eq : ∀ i, a.age i = frees es i
  freed_iff : ∀ h, .freed h ∈ es ↔ h.generation.toNat < a.age h.index
  issued_iff : ∀ h, .issued h ∈ es ↔ h.generation.toNat < a.age h.index ∨ a.contains h = true
  nodup : es.Nodup

namespace Records

theorem empty : Records [] (empty : Arena α) where
  wellFormed := empty_wellFormed
  age_eq := by simp [age, Arena.empty, frees]
  freed_iff := by simp [age, Arena.empty]
  issued_iff := by simp [age, Arena.empty, contains, get?]
  nodup := .nil

variable {es : List Event} {a : Arena α}

/-- A handle finds an item exactly if it was issued and not freed since. -/
theorem contains_iff (r : Records es a) (h : Handle) :
    a.contains h = true ↔ .issued h ∈ es ∧ .freed h ∉ es := by
  rw [r.issued_iff, r.freed_iff]
  constructor
  · intro hl
    exact ⟨.inr hl, by simp [age_of_contains hl]⟩
  · rintro ⟨hlt | hl, hnot⟩
    · exact absurd hlt hnot
    · exact hl

theorem insert (r : Records es a) (item : α) : Records (.issued a.next :: es) (a.insert item) where
  wellFormed := insert_wellFormed r.wellFormed item
  age_eq i := by rw [age_insert, r.age_eq, frees_issued]
  freed_iff h := by simp [r.freed_iff, age_insert]
  issued_iff h := by
    rw [List.mem_cons, Event.issued.injEq, age_insert, contains_insert r.wellFormed, r.issued_iff]
    exact or_left_comm
  nodup := by
    refine List.nodup_cons.mpr ⟨?_, r.nodup⟩
    rw [r.issued_iff, age_next r.wellFormed, not_contains_next r.wellFormed]
    simp

theorem modify (r : Records es a) (k : Handle) (f : α → α) : Records es (a.modify k f) where
  wellFormed := modify_wellFormed r.wellFormed k f
  age_eq i := by rw [age_modify, r.age_eq]
  freed_iff h := by rw [r.freed_iff, age_modify]
  issued_iff h := by rw [r.issued_iff, age_modify, contains_modify]
  nodup := r.nodup

/-- A handle of the age of its slot that is not live was never issued. -/
theorem remove (r : Records es a) {k : Handle} (live : a.contains k = true)
    (hb : Bounded (.freed k :: es)) : Records (.freed k :: es) (a.remove k) := by
  have hold : a.age k.index = k.generation.toNat := age_of_contains live
  have hbound : a.age k.index + 1 < UInt32.size := by
    have hk := hb k.index
    rwa [frees_freed, if_pos rfl, ← r.age_eq] at hk
  have hage := age_remove live hbound
  have younger (h : Handle) : h.generation.toNat < (a.remove k).age h.index ↔
      h = k ∨ h.generation.toNat < a.age h.index := by
    rw [hage]
    by_cases hi : k.index = h.index
    · have hsame : h = k ↔ h.generation.toNat = a.age h.index := by
        rw [← hi, hold, UInt32.toNat_inj]
        exact ⟨fun he => by rw [he], fun he => by cases h; cases k; simp_all⟩
      rw [if_pos hi, hsame, Nat.lt_succ_iff_lt_or_eq, or_comm]
    · have hne : h ≠ k := fun he => hi (by rw [he])
      simp [hi, hne]
  refine ⟨remove_wellFormed r.wellFormed k, fun i => ?_, fun h => ?_, fun h => ?_, ?_⟩
  · rw [hage, frees_freed, r.age_eq]
  · rw [List.mem_cons, Event.freed.injEq, r.freed_iff, younger]
  · rw [List.mem_cons, younger, contains_remove, r.issued_iff]
    by_cases hk : h = k
    · simp [hk, live]
    · simp [hk]
  · refine List.nodup_cons.mpr ⟨?_, r.nodup⟩
    rw [r.freed_iff, hold]
    exact Nat.lt_irrefl _

end Records

/-- An arena that began empty tells its whole history. The induction is on the events. -/
theorem History.records {a : Arena α} {es : List Event} (h : History empty es a) (hb : Bounded es) :
    Records es a := by
  induction h with
  | refl => exact .empty
  | insert h item ih => exact (ih hb.of_cons).insert item
  | modify h k f ih => exact (ih hb).modify k f
  | remove h live ih => exact (ih hb.of_cons).remove live hb

end Arena

end InterfaceCatalog
