import InterfaceCatalog.Query.Inheritance
import InterfaceCatalog.Query.TypeText
import Mathlib.Data.Fintype.EquivFin
import Mathlib.Data.Set.Finite.List

namespace InterfaceCatalog

namespace Catalog

variable {c : Catalog} {v w : View .types}

/-- The type that the alias of a type stands for. -/
def aliasTarget? (c : Catalog) (v : View .types) : Option (View .types) :=
  (c.alias? v.record).bind fun d => c.optionView? d.record.base

/-- The type behind a number of aliases. -/
def typeAfter? (c : Catalog) : Nat → View .types → Option (View .types)
  | 0, v => some v
  | n + 1, v => (c.aliasTarget? v).bind (c.typeAfter? n)

@[simp] theorem typeAfter?_zero (c : Catalog) (v : View .types) : c.typeAfter? 0 v = some v := rfl

theorem typeAfter?_succ (c : Catalog) (n : Nat) (v : View .types) :
    c.typeAfter? (n + 1) v = (c.typeAfter? n v).bind c.aliasTarget? := by
  induction n generalizing v with
  | zero => simp [typeAfter?]
  | succ n ih =>
    rw [typeAfter?]
    cases ht : c.aliasTarget? v with
    | none => simp [typeAfter?, ht]
    | some u =>
      rw [Option.bind_some, ih u]
      simp only [typeAfter?, ht, Option.bind_some]

/-- What lies behind many aliases lies behind the rest of them from the type behind the first
ones. -/
theorem exists_typeAfter?_of_le {m n : Nat} (hle : m ≤ n) (h : c.typeAfter? n v = some w) :
    ∃ u, c.typeAfter? m v = some u ∧ (m < n → c.aliasTarget? u ≠ none) := by
  induction n, hle using Nat.le_induction generalizing w with
  | base => exact ⟨w, h, fun hlt => absurd hlt (Nat.lt_irrefl m)⟩
  | succ n hle ih =>
    rw [typeAfter?_succ] at h
    obtain ⟨x, hx, hw⟩ := Option.bind_eq_some_iff.mp h
    obtain ⟨u, hu, hmore⟩ := ih hx
    refine ⟨u, hu, fun _ => ?_⟩
    rcases Nat.lt_or_eq_of_le hle with hlt | rfl
    · exact hmore hlt
    · cases hu.symm.trans hx
      simp [hw]

theorem aliasedBaseWithin_succ (c : Catalog) (steps : Nat) (v : View .types) :
    c.aliasedBaseWithin (steps + 1) v =
      match c.aliasTarget? v with
      | none => v
      | some base => c.aliasedBaseWithin steps base := rfl

/-- As many aliases are followed as there are steps. -/
theorem aliasedBaseWithin_of_typeAfter? {steps : Nat} (h : c.typeAfter? steps v = some w) :
    c.aliasedBaseWithin steps v = w := by
  induction steps generalizing v with
  | zero => exact Option.some.inj h
  | succ steps ih =>
    obtain ⟨u, hu, hw⟩ := Option.bind_eq_some_iff.mp h
    rw [aliasedBaseWithin_succ, hu]
    exact ih hw

/-- The end of a chain is not left. -/
theorem aliasedBaseWithin_of_end {steps n : Nat} (hle : n ≤ steps) (h : c.typeAfter? n v = some w)
    (hend : c.aliasTarget? w = none) : c.aliasedBaseWithin steps v = w := by
  induction steps generalizing n v with
  | zero =>
    obtain rfl := Nat.le_zero.mp hle
    exact Option.some.inj h
  | succ steps ih =>
    rw [aliasedBaseWithin_succ]
    cases n with
    | zero =>
      obtain rfl := Option.some.inj h
      rw [hend]
    | succ n =>
      obtain ⟨u, hu, hw⟩ := Option.bind_eq_some_iff.mp h
      rw [hu]
      exact ih (Nat.le_of_succ_le_succ hle) hw

theorem mem_entries_of_aliasTarget? (h : c.aliasTarget? v = some w) :
    w ∈ c.store.types.entries.map fun e => (⟨⟨e.1⟩, e.2⟩ : View .types) := by
  obtain ⟨d, -, hbase⟩ := Option.bind_eq_some_iff.mp h
  obtain ⟨id, -, hview⟩ := Option.bind_eq_some_iff.mp hbase
  obtain ⟨record, hget, rfl⟩ := Option.map_eq_some_iff.mp hview
  exact List.mem_map.mpr ⟨(id.handle, record), mem_entries_of_get? hget, rfl⟩

/-- A chain of aliases that has no end meets a type again, as there are finitely many types. -/
theorem exists_end_of_acyclic
    (hacyclic : ∀ i j u, c.typeAfter? i v = some u → c.typeAfter? j v = some u → i = j) :
    ∃ n w, c.typeAfter? n v = some w ∧ c.aliasTarget? w = none := by
  by_contra hendless
  push Not at hendless
  have hgoes (n : Nat) : ∃ w, c.typeAfter? n v = some w := by
    induction n with
    | zero => exact ⟨v, rfl⟩
    | succ n ih =>
      obtain ⟨w, hw⟩ := ih
      obtain ⟨x, hx⟩ := Option.ne_none_iff_exists'.mp (hendless n w hw)
      exact ⟨x, by rw [typeAfter?_succ, hw, Option.bind_some, hx]⟩
  choose after hafter using hgoes
  have hinjective : Function.Injective fun n => after (n + 1) := fun i j hij =>
    Nat.succ.inj (hacyclic _ _ _ (hafter (i + 1)) ((hafter (j + 1)).trans (congrArg some hij.symm)))
  refine Set.infinite_of_injective_forall_mem hinjective (fun n => ?_)
    (List.finite_toSet (c.store.types.entries.map fun e => (⟨⟨e.1⟩, e.2⟩ : View .types)))
  have hstep := hafter (n + 1)
  rw [typeAfter?_succ, hafter n] at hstep
  exact mem_entries_of_aliasTarget? hstep

/-- The end of a chain is reached exactly if the chain has no more aliases than an evaluation
may be deep. A longer chain, so also a cycle, is left at that depth. Every chain that is not a
cycle has an end. -/
theorem aliasedBase_chain (c : Catalog) (v : View .types) :
    (∀ n w, c.typeAfter? n v = some w → c.aliasTarget? w = none →
      (c.aliasedBase v = w ↔ n ≤ maximumDepth)) ∧
    (∀ w, c.typeAfter? maximumDepth v = some w → c.aliasedBase v = w) ∧
    ((∀ i j u, c.typeAfter? i v = some u → c.typeAfter? j v = some u → i = j) →
      ∃ n w, c.typeAfter? n v = some w ∧ c.aliasTarget? w = none) := by
  refine ⟨fun n w h hend => ⟨fun hbase => ?_, fun hle => aliasedBaseWithin_of_end hle h hend⟩,
    fun w => aliasedBaseWithin_of_typeAfter?, exists_end_of_acyclic⟩
  by_contra hlt
  obtain ⟨u, hu, hmore⟩ := exists_typeAfter?_of_le (Nat.le_of_not_le hlt) h
  have hcut : c.aliasedBase v = u := aliasedBaseWithin_of_typeAfter? hu
  exact hmore (Nat.lt_of_not_le hlt) (hcut ▸ hbase ▸ hend)

/-- A type of a chain. The first one is no alias, and each other one refers to the alias before
it. -/
def chainType (i : Nat) : View .types :=
  ⟨⟨i, 0⟩, {
    fullName := if i = 0 then "int" else s!"A{i}", file := "a.eot", kind := .regular
    builtin := if i = 0 then .int else .invalid, qualifiers := ⟨false, false, false⟩,
    freeFunction := none
    firstParameter := none, next := none, typedecl := if i = 0 then none else some ⟨i - 1, 0⟩
    classId := none }⟩

def chainAlias (i : Nat) : TypedeclRecord :=
  { fullName := s!"A{i + 1}", file := "a.eot", kind := .alias, base := some ⟨i, 0⟩ }

/-- A number of aliases, each of which stands for the type that refers to the one before it. -/
def chainCatalog (n : Nat) : Catalog where
  store := {
    types := ⟨((List.range (n + 1)).map fun i => ⟨0, some (chainType i).record⟩).toArray, [], n + 1⟩
    typedecls := ⟨((List.range n).map fun i => ⟨0, some (chainAlias i)⟩).toArray, [], n⟩ }

theorem view?_chainType {n i : Nat} (hi : i ≤ n) :
    (chainCatalog n).view? (chainType i).id = some (chainType i) := by
  have hslot : i < n + 1 := Nat.lt_succ_of_le hi
  simp [view?, get?, Store.get?, Store.arena, Arena.get?, chainCatalog, chainType, hslot]

theorem aliasTarget?_chainType {n i : Nat} (hi : i < n) :
    (chainCatalog n).aliasTarget? (chainType (i + 1)) = some (chainType i) := by
  have halias : (chainCatalog n).alias? (chainType (i + 1)).record =
      some ⟨⟨i, 0⟩, chainAlias i⟩ := by
    simp [alias?, optionView?, view?, get?, Store.get?, Store.arena, Arena.get?,
      chainCatalog, chainType, chainAlias, hi]
  rw [aliasTarget?, halias]
  exact view?_chainType (Nat.le_of_lt hi)

theorem aliasTarget?_chainType_zero (n : Nat) :
    (chainCatalog n).aliasTarget? (chainType 0) = none := rfl

theorem typeAfter?_chainType {n m i : Nat} (hi : m + i ≤ n) :
    (chainCatalog n).typeAfter? m (chainType (m + i)) = some (chainType i) := by
  induction m with
  | zero => rw [Nat.zero_add, typeAfter?_zero]
  | succ m ih =>
    rw [Nat.succ_add, typeAfter?, aliasTarget?_chainType (by omega), Option.bind_some]
    exact ih (by omega)

theorem typeAfter?_chainType_self {n i : Nat} {u : View .types}
    (h : (chainCatalog n).typeAfter? i (chainType n) = some u) : i ≤ n ∧ u = chainType (n - i) := by
  by_cases hi : i ≤ n
  · have hafter := typeAfter?_chainType (n := n) (m := i) (i := n - i) (by omega)
    rw [Nat.add_sub_cancel' hi, h] at hafter
    exact ⟨hi, Option.some.inj hafter⟩
  · obtain ⟨x, hx, hmore⟩ := exists_typeAfter?_of_le (Nat.le_of_not_le hi) h
    have hend := typeAfter?_chainType (n := n) (m := n) (i := 0) (Nat.le_refl n)
    rw [Nat.add_zero, hx] at hend
    exact absurd (Option.some.inj hend ▸ aliasTarget?_chainType_zero n)
      (hmore (Nat.lt_of_not_le hi))

theorem chainType_acyclic (n i j : Nat) (u : View .types)
    (hi : (chainCatalog n).typeAfter? i (chainType n) = some u)
    (hj : (chainCatalog n).typeAfter? j (chainType n) = some u) : i = j := by
  obtain ⟨hin, rfl⟩ := typeAfter?_chainType_self hi
  obtain ⟨hjn, hu⟩ := typeAfter?_chainType_self hj
  have hindex : n - i = n - j := congrArg (fun v => v.id.handle.index) hu
  omega

/-- A chain of two aliases is followed to its end, and one of three hundred is left before it. -/
theorem aliasedBase_chainType :
    (chainCatalog 2).aliasedBase (chainType 2) = chainType 0 ∧
      (chainCatalog 300).aliasedBase (chainType 300) = chainType 44 := by
  have hshort := typeAfter?_chainType (n := 2) (m := 2) (i := 0) (Nat.le_refl 2)
  have hlong := typeAfter?_chainType (n := 300) (m := 256) (i := 44) (Nat.le_refl 300)
  exact ⟨((aliasedBase_chain (chainCatalog 2) (chainType 2)).1 2 _ hshort
      (aliasTarget?_chainType_zero 2)).mpr (by decide),
    (aliasedBase_chain (chainCatalog 300) (chainType 300)).2.1 _ hlong⟩

/-- A chain of aliases that has an end and is not followed to it. -/
theorem aliasedBase_misses_end :
    (∀ i j u, (chainCatalog 257).typeAfter? i (chainType 257) = some u →
      (chainCatalog 257).typeAfter? j (chainType 257) = some u → i = j) ∧
    (chainCatalog 257).typeAfter? 257 (chainType 257) = some (chainType 0) ∧
    (chainCatalog 257).aliasTarget? (chainType 0) = none ∧
    (chainCatalog 257).aliasedBase (chainType 257) ≠ chainType 0 := by
  have hend := typeAfter?_chainType (n := 257) (m := 257) (i := 0) (Nat.le_refl 257)
  have hlast := typeAfter?_chainType (n := 257) (m := 256) (i := 1) (Nat.le_refl 257)
  have hcut : (chainCatalog 257).aliasedBase (chainType 257) = chainType 1 :=
    aliasedBaseWithin_of_typeAfter? hlast
  refine ⟨chainType_acyclic 257, hend, aliasTarget?_chainType_zero 257, fun hbase => ?_⟩
  have hindex := congrArg (fun v : View .types => v.id.handle.index) (hcut.symm.trans hbase)
  exact absurd hindex (by decide)

end Catalog

end InterfaceCatalog
