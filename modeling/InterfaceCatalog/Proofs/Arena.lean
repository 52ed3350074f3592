import InterfaceCatalog.Arena
import Mathlib.Data.List.Nodup

namespace InterfaceCatalog

theorem Handle.generation_ne {h k : Handle} (hk : k ≠ h) (hi : h.index = k.index) :
    h.generation ≠ k.generation := by
  intro hg
  obtain ⟨i, g⟩ := h
  obtain ⟨j, l⟩ := k
  simp only at hi hg
  exact hk (by rw [hi, hg])

namespace Arena

variable {α : Type}

/-- Every vacant slot is listed once and is empty. -/
structure WellFormed (a : Arena α) : Prop where
  nodup : a.vacant.Nodup
  empty_slot : ∀ i ∈ a.vacant, ∃ slot, a.slots[i]? = some slot ∧ slot.item = none

theorem empty_wellFormed : (empty : Arena α).WellFormed :=
  ⟨by simp [empty], by simp [empty]⟩

@[simp] theorem get?_empty (h : Handle) : (empty : Arena α).get? h = none := by
  simp [get?, empty]

theorem get?_eq_some_iff {a : Arena α} {h : Handle} {x : α} :
    a.get? h = some x ↔ a.slots[h.index]? = some ⟨h.generation, some x⟩ := by
  unfold get?
  split
  · next slot hs =>
    obtain ⟨g, item⟩ := slot
    by_cases hg : g = h.generation <;> simp [hs, hg]
  · next hs => simp [hs]

/-- The slot of the next item is new, or an empty one of its generation. -/
theorem slot_next {a : Arena α} (wf : a.WellFormed) :
    (a.vacant = [] ∧ a.next = ⟨a.slots.size, 0⟩) ∨
      ∃ i rest, a.vacant = i :: rest ∧ a.next.index = i ∧
        a.slots[i]? = some ⟨a.next.generation, none⟩ := by
  cases hv : a.vacant with
  | nil => exact Or.inl ⟨rfl, by simp [next, hv]⟩
  | cons i rest =>
    obtain ⟨slot, hs, he⟩ := wf.empty_slot i (by simp [hv])
    have hn : a.next = ⟨i, slot.generation⟩ := by simp [next, hv, hs]
    refine Or.inr ⟨i, rest, rfl, by rw [hn], ?_⟩
    rw [hn, hs, ← he]

/-- An item gets the handle that was announced for it. -/
theorem issued_eq_next {a : Arena α} (wf : a.WellFormed) (x : α) : a.issued x = a.next := by
  cases hv : a.vacant with
  | nil => simp [issued, next, hv]
  | cons i rest =>
    obtain ⟨slot, hs, -⟩ := wf.empty_slot i (by simp [hv])
    simp [issued, next, insert, hv, Array.getElem?_modify, hs]

theorem get?_next {a : Arena α} (wf : a.WellFormed) : a.get? a.next = none := by
  cases hx : a.get? a.next with
  | none => rfl
  | some x =>
    have hs := get?_eq_some_iff.mp hx
    rcases slot_next wf with ⟨_, hn⟩ | ⟨i, rest, _, hi, he⟩
    · simp [hn] at hs
    · rw [hi, he] at hs
      simp at hs

theorem get?_insert_next {a : Arena α} (wf : a.WellFormed) (x : α) :
    (a.insert x).get? a.next = some x := by
  rw [get?_eq_some_iff]
  rcases slot_next wf with ⟨hv, hn⟩ | ⟨i, rest, hv, hi, he⟩
  · simp [insert, hv, hn]
  · have hs : (a.slots.modify i fun slot => { slot with item := some x })[i]? =
        some ⟨a.next.generation, some x⟩ := by simp [Array.getElem?_modify, he]
    simpa only [insert, hv, hi] using hs

theorem get?_insert_of_ne {a : Arena α} (wf : a.WellFormed) (x : α) {h : Handle} (hn : h ≠ a.next) :
    (a.insert x).get? h = a.get? h := by
  have key : ∀ y, (a.insert x).get? h = some y ↔ a.get? h = some y := by
    intro y
    simp only [get?_eq_some_iff]
    rcases slot_next wf with ⟨hv, he⟩ | ⟨i, rest, hv, hi, he⟩
    · rw [insert, hv]
      simp only [Array.getElem?_push]
      split
      · next hx =>
        have hg : h.generation ≠ 0 := by
          intro hg
          exact hn (by rw [he, ← hx, ← hg])
        have hnone : a.slots[h.index]? = none := by simp [hx]
        simp [hnone, Ne.symm hg]
      · rfl
    · rw [insert, hv]
      simp only [Array.getElem?_modify]
      split
      · next hx =>
        simp [← hx, he, Handle.generation_ne hn (hi.trans hx)]
      · rfl
  exact Option.ext key

theorem insert_wellFormed {a : Arena α} (wf : a.WellFormed) (x : α) : (a.insert x).WellFormed := by
  cases hv : a.vacant with
  | nil => exact ⟨by simp [insert, hv], by simp [insert, hv]⟩
  | cons i rest =>
    have hnodup := wf.nodup
    rw [hv, List.nodup_cons] at hnodup
    refine ⟨by simpa [insert, hv] using hnodup.2, ?_⟩
    intro j hj
    have hjr : j ∈ rest := by simpa [insert, hv] using hj
    obtain ⟨slot, hs, he⟩ := wf.empty_slot j (by simp [hv, hjr])
    have hij : i ≠ j := fun h => hnodup.1 (h ▸ hjr)
    exact ⟨slot, by simp [insert, hv, Array.getElem?_modify, hij, hs], he⟩

theorem contains_iff {a : Arena α} {h : Handle} :
    a.contains h = true ↔ ∃ x, a.slots[h.index]? = some ⟨h.generation, some x⟩ := by
  rw [contains, Option.isSome_iff_exists]
  simp only [get?_eq_some_iff]

theorem get?_modify_self (a : Arena α) (h : Handle) (f : α → α) :
    (a.modify h f).get? h = (a.get? h).map f := by
  by_cases hc : a.contains h = true
  · obtain ⟨x, hs⟩ := contains_iff.mp hc
    have hx := get?_eq_some_iff.mpr hs
    rw [hx, Option.map_some, get?_eq_some_iff]
    simp [modify, hc, Array.getElem?_modify, hs]
  · have hnone : a.get? h = none := by simpa [contains] using hc
    simp [modify, hc, hnone]

theorem get?_modify_of_ne (a : Arena α) {h k : Handle} (f : α → α) (hk : k ≠ h) :
    (a.modify h f).get? k = a.get? k := by
  by_cases hc : a.contains h = true
  · obtain ⟨x, hs⟩ := contains_iff.mp hc
    apply Option.ext
    intro y
    simp only [get?_eq_some_iff, modify, hc, if_true, Array.getElem?_modify]
    split
    · next hi => simp [← hi, hs, Handle.generation_ne hk hi]
    · rfl
  · simp [modify, hc]

theorem modify_wellFormed {a : Arena α} (wf : a.WellFormed) (h : Handle) (f : α → α) :
    (a.modify h f).WellFormed := by
  by_cases hc : a.contains h = true
  · refine ⟨by simpa [modify, hc] using wf.nodup, ?_⟩
    intro i hi
    obtain ⟨slot, hs, he⟩ := wf.empty_slot i (by simpa [modify, hc] using hi)
    by_cases hx : h.index = i
    · exact ⟨{ slot with item := slot.item.map f },
        by simp [modify, hc, Array.getElem?_modify, hx, hs], by simp [he]⟩
    · exact ⟨slot, by simp [modify, hc, Array.getElem?_modify, hx, hs], he⟩
  · simpa [modify, hc] using wf

theorem get?_remove_self (a : Arena α) (h : Handle) : (a.remove h).get? h = none := by
  by_cases hc : a.contains h = true
  · obtain ⟨x, hs⟩ := contains_iff.mp hc
    simp [get?, remove, hc, Array.getElem?_modify, hs]
  · have hnone : a.get? h = none := by simpa [contains] using hc
    simp [remove, hc, hnone]

theorem get?_remove_of_ne (a : Arena α) {h k : Handle} (hk : k ≠ h) :
    (a.remove h).get? k = a.get? k := by
  by_cases hc : a.contains h = true
  · obtain ⟨x, hs⟩ := contains_iff.mp hc
    apply Option.ext
    intro y
    simp only [get?_eq_some_iff, remove, hc, if_true, Array.getElem?_modify]
    split
    · next hi => simp [← hi, hs, Handle.generation_ne hk hi]
    · rfl
  · simp [remove, hc]

theorem remove_wellFormed {a : Arena α} (wf : a.WellFormed) (h : Handle) :
    (a.remove h).WellFormed := by
  by_cases hc : a.contains h = true
  · obtain ⟨x, hs⟩ := contains_iff.mp hc
    have hmem : h.index ∉ a.vacant := by
      intro hv
      obtain ⟨slot, ht, he⟩ := wf.empty_slot _ hv
      rw [hs] at ht
      cases ht
      simp at he
    refine ⟨by simpa [remove, hc, hmem] using wf.nodup, ?_⟩
    intro i hi
    have hi' : i = h.index ∨ i ∈ a.vacant := by simpa [remove, hc] using hi
    rcases hi' with rfl | hi'
    · exact ⟨⟨h.generation + 1, none⟩, by simp [remove, hc, Array.getElem?_modify, hs], rfl⟩
    · obtain ⟨slot, ht, he⟩ := wf.empty_slot i hi'
      have hx : h.index ≠ i := fun hx => hmem (hx ▸ hi')
      exact ⟨slot, by simp [remove, hc, Array.getElem?_modify, hx, ht], he⟩
  · simpa [remove, hc] using wf

end Arena

end InterfaceCatalog
