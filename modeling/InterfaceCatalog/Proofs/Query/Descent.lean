import InterfaceCatalog.Proofs.Catalog.Content
import InterfaceCatalog.Query.Inheritance
import Mathlib.Data.List.Nodup
import Mathlib.Data.List.Perm.Subperm

namespace InterfaceCatalog

theorem Arena.length_le_slots {α : Type} {a : Arena α} {handles : List Handle} (hn : handles.Nodup)
    (hl : ∀ h ∈ handles, (a.get? h).isSome) : handles.length ≤ a.slots.size := by
  have hsubset : handles ⊆ a.entries.map Prod.fst := by
    intro h hh
    obtain ⟨x, hx⟩ := Option.isSome_iff_exists.mp (hl h hh)
    exact List.mem_map.mpr ⟨_, Catalog.mem_entries_of_get? hx, rfl⟩
  calc handles.length ≤ (a.entries.map Prod.fst).length := (hn.subperm hsubset).length_le
    _ = a.entries.length := List.length_map _
    _ ≤ a.slots.toList.zipIdx.length := List.length_filterMap_le _ _
    _ = a.slots.size := by rw [List.length_zipIdx, Array.length_toList]

namespace Catalog

variable {c : Catalog} {t : Table} {S : Nat → Id t → Prop}

/-- `S n id` says that a way of `n` steps starts at `id`. -/
theorem lt_slots_of_descent (live : ∀ {n id}, S n id → c.Live id)
    (unique : ∀ {m n id}, S m id → S n id → m = n)
    (down : ∀ {n id}, S (n + 1) id → ∃ next, S n next) {n : Nat} {id : Id t} (h : S n id) :
    n < (c.store.arena t).slots.size := by
  have way : ∃ ids : List (Id t), ids.length = n + 1 ∧ ids.Nodup ∧ ∀ i ∈ ids, ∃ m ≤ n, S m i := by
    induction n generalizing id with
    | zero => exact ⟨[id], rfl, List.nodup_singleton id, by simpa using h⟩
    | succ n ih =>
      obtain ⟨next, hnext⟩ := down h
      obtain ⟨ids, hlength, hnodup, hids⟩ := ih hnext
      refine ⟨id :: ids, by rw [List.length_cons, hlength],
        List.nodup_cons.mpr ⟨fun hmem => ?_, hnodup⟩, ?_⟩
      · -- what is left behind `id` would have to be shorter than it is
        obtain ⟨m, hm, hshort⟩ := hids id hmem
        have := unique hshort h
        omega
      · refine List.forall_mem_cons.mpr ⟨⟨n + 1, Nat.le_refl _, h⟩, fun i hi => ?_⟩
        obtain ⟨m, hm, hi⟩ := hids i hi
        exact ⟨m, by omega, hi⟩
  obtain ⟨ids, hlength, hnodup, hids⟩ := way
  have hhandles : (ids.map Id.handle).Nodup :=
    hnodup.map fun i j hij => by cases i; cases j; cases hij; rfl
  have hle := Arena.length_le_slots (a := c.store.arena t) hhandles fun handle hhandle => by
    obtain ⟨i, hi, rfl⟩ := List.mem_map.mp hhandle
    obtain ⟨m, -, hm⟩ := hids i hi
    exact live hm
  rw [List.length_map, hlength] at hle
  exact hle

end Catalog

end InterfaceCatalog
