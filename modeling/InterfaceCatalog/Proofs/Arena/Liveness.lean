import InterfaceCatalog.Proofs.Arena
import Mathlib.Algebra.Group.Nat.Defs
import Mathlib.Data.List.Pairwise
import Mathlib.Data.List.Count

namespace InterfaceCatalog

namespace Arena

inductive Operation (α : Type) where
  | insert (item : α)
  /-- The item may depend on its own handle. -/
  | insertWith (item : Handle → α)
  | lookup (h : Handle)
  | update (h : Handle) (f : α → α)
  | remove (h : Handle)

inductive Answer (α : Type) where
  | handle (h : Handle)
  | item (found : Option α)

/-- What happened to a slot. -/
inductive Deed (α : Type) where
  | filled (item : α)
  | changed (f : α → α)
  | freed

/-- What happened to the slots, newest first. -/
abbrev Ledger (α : Type) := List (Nat × Deed α)

variable {α : Type}

def perform (a : Arena α) : Operation α → Answer α × Arena α
  | .insert item => (.handle (a.issued item), a.insert item)
  | .insertWith item => (.handle (a.issued (item a.next)), a.insert (item a.next))
  | .lookup h => (.item (a.get? h), a)
  | .update h f => (.item ((a.get? h).map f), a.modify h f)
  | .remove h => (.item (a.get? h), a.remove h)

/-- What an answer says to have happened. An operation that finds no item does nothing. -/
def deed? : Operation α → Answer α → Option (Nat × Deed α)
  | .insert item, .handle h => some (h.index, .filled item)
  | .insertWith item, .handle h => some (h.index, .filled (item h))
  | .update h f, .item (some _) => some (h.index, .changed f)
  | .remove h, .item (some _) => some (h.index, .freed)
  | _, _ => none

def Deed.leaves : Deed α → Option α → Option α
  | .filled item, _ => some item
  | .changed f, item => item.map f
  | .freed, _ => none

namespace Ledger

/-- The item that was put into a slot last, with its later changes, unless the slot was freed
since. -/
def content : Ledger α → Nat → Option α
  | [], _ => none
  | (j, d) :: ledger, i => if j = i then d.leaves (content ledger i) else content ledger i

/-- How often a slot was freed. -/
def removals : Ledger α → Nat → Nat
  | [], _ => 0
  | (j, .freed) :: ledger, i => removals ledger i + if j = i then 1 else 0
  | _ :: ledger, i => removals ledger i

/-- The slot of a handle has the item, and was freed as often as the handle says, up to a multiple
of the number of generations. -/
def Holds (ledger : Ledger α) (h : Handle) (item : α) : Prop :=
  ledger.content h.index = some item ∧ ledger.removals h.index % 2 ^ 32 = h.generation.toNat

def insertions (ledger : Ledger α) : Nat :=
  ledger.countP fun | (_, .filled _) => true | _ => false

def allRemovals (ledger : Ledger α) : Nat :=
  ledger.countP fun | (_, .freed) => true | _ => false

theorem content_cons_self (ledger : Ledger α) (i : Nat) (d : Deed α) :
    content ((i, d) :: ledger) i = d.leaves (content ledger i) :=
  if_pos rfl

theorem content_cons_of_ne (ledger : Ledger α) {i j : Nat} (h : j ≠ i) (d : Deed α) :
    content ((j, d) :: ledger) i = content ledger i :=
  if_neg h

theorem removals_freed (ledger : Ledger α) (i : Nat) :
    removals ((i, .freed) :: ledger) i = removals ledger i + 1 := by
  rw [removals, if_pos rfl]

theorem removals_cons_of_ne (ledger : Ledger α) {i j : Nat} (h : j ≠ i) (d : Deed α) :
    removals ((j, d) :: ledger) i = removals ledger i := by
  cases d with
  | filled item => rfl
  | changed f => rfl
  | freed => rw [removals, if_neg h, Nat.add_zero]

end Ledger

/-- An arena with what its answers said. -/
structure Account (α : Type) where
  arena : Arena α
  ledger : Ledger α

def Account.perform (s : Account α) (o : Operation α) : Account α :=
  let (answer, arena) := s.arena.perform o
  ⟨arena, (deed? o answer).toList ++ s.ledger⟩

/-- The series of operations on an empty arena. -/
def run (operations : List (Operation α)) : Account α :=
  operations.foldl Account.perform ⟨empty, []⟩

theorem run_append (operations later : List (Operation α)) :
    run (operations ++ later) = later.foldl Account.perform (run operations) :=
  List.foldl_append

/-- The slots are as the ledger tells, and the vacant ones are listed once. -/
structure Tells (ledger : Ledger α) (a : Arena α) : Prop where
  slot : ∀ i < a.slots.size, a.slots[i]? = some ⟨.ofNat (ledger.removals i), ledger.content i⟩
  beyond : ∀ i, a.slots.size ≤ i → ledger.removals i = 0 ∧ ledger.content i = none
  nodup : a.vacant.Nodup
  vacant_iff : ∀ i, i ∈ a.vacant ↔ i < a.slots.size ∧ ledger.content i = none

namespace Tells

variable {ledger : Ledger α} {a : Arena α}

theorem empty : Tells [] (empty : Arena α) where
  slot i hi := by simp [Arena.empty] at hi
  beyond _ _ := ⟨rfl, rfl⟩
  nodup := List.nodup_nil
  vacant_iff i := by simp [Arena.empty]

theorem wellFormed (t : Tells ledger a) : a.WellFormed where
  nodup := t.nodup
  empty_slot i hi := by
    obtain ⟨hlt, hnone⟩ := (t.vacant_iff i).mp hi
    exact ⟨_, t.slot i hlt, hnone⟩

theorem get?_iff (t : Tells ledger a) (h : Handle) (x : α) :
    a.get? h = some x ↔ ledger.Holds h x := by
  rw [get?_eq_some_iff, Ledger.Holds]
  by_cases hi : h.index < a.slots.size
  · have hgeneration : UInt32.ofNat (ledger.removals h.index) = h.generation ↔
        ledger.removals h.index % 2 ^ 32 = h.generation.toNat := by
      rw [← UInt32.toNat_inj, UInt32.toNat_ofNat']
    rw [t.slot _ hi, Option.some_inj, Slot.mk.injEq, hgeneration, and_comm]
  · have hout := Nat.le_of_not_lt hi
    simp [(t.beyond _ hout).2, Array.getElem?_eq_none hout]

/-- The next item goes into a slot that is new or vacant. -/
theorem next (t : Tells ledger a) :
    (a.vacant = [] ∧ a.next.index = a.slots.size) ∨
      ∃ rest, a.vacant = a.next.index :: rest ∧ a.next.index < a.slots.size ∧
        ledger.content a.next.index = none := by
  rcases slot_next t.wellFormed with ⟨hv, hn⟩ | ⟨i, rest, hv, hi, -⟩
  · exact .inl ⟨hv, by rw [hn]⟩
  · obtain ⟨hlt, hnone⟩ := (t.vacant_iff i).mp (by simp [hv])
    exact .inr ⟨rest, by rw [hi, hv], by rwa [hi], by rwa [hi]⟩

/-- A deed at one slot, which shows it, and which is vacant exactly if the deed leaves it so. -/
theorem touch (t : Tells ledger a) {j : Nat} {d : Deed α} {f : Slot α → Slot α} {vacant : List Nat}
    {size : Nat} (hj : j < a.slots.size)
    (hslot : f ⟨.ofNat (ledger.removals j), ledger.content j⟩ =
      ⟨.ofNat (Ledger.removals ((j, d) :: ledger) j), d.leaves (ledger.content j)⟩)
    (hnodup : vacant.Nodup) (hself : j ∈ vacant ↔ d.leaves (ledger.content j) = none)
    (hother : ∀ i, j ≠ i → (i ∈ vacant ↔ i ∈ a.vacant)) :
    Tells ((j, d) :: ledger) ⟨a.slots.modify j f, vacant, size⟩ where
  slot i hi := by
    rw [Array.size_modify] at hi
    rw [Array.getElem?_modify]
    by_cases hx : j = i
    · subst hx
      rw [if_pos rfl, t.slot j hi, Option.map_some, hslot, Ledger.content_cons_self]
    · rw [if_neg hx, t.slot i hi, ledger.removals_cons_of_ne hx, ledger.content_cons_of_ne hx]
  beyond i hi := by
    rw [Array.size_modify] at hi
    have hx : j ≠ i := Nat.ne_of_lt (Nat.lt_of_lt_of_le hj hi)
    rw [ledger.removals_cons_of_ne hx, ledger.content_cons_of_ne hx]
    exact t.beyond i hi
  nodup := hnodup
  vacant_iff i := by
    rw [Array.size_modify]
    by_cases hx : j = i
    · subst hx
      rw [ledger.content_cons_self, hself, and_iff_right hj]
    · rw [ledger.content_cons_of_ne hx, hother i hx, t.vacant_iff]

/-- An item in a new slot, if there is no vacant one. -/
theorem push (t : Tells ledger a) (hv : a.vacant = []) (item : α) {size : Nat} :
    Tells ((a.slots.size, .filled item) :: ledger) ⟨a.slots.push ⟨0, some item⟩, [], size⟩ where
  slot i hi := by
    rw [Array.size_push] at hi
    rw [Array.getElem?_push]
    by_cases hx : a.slots.size = i
    · subst hx
      have hnever := (t.beyond _ (Nat.le_refl _)).1
      rw [if_pos rfl, ledger.content_cons_self]
      simp [Ledger.removals, Deed.leaves, hnever]
    · rw [if_neg (Ne.symm hx), t.slot i (by omega), ledger.removals_cons_of_ne hx,
        ledger.content_cons_of_ne hx]
  beyond i hi := by
    rw [Array.size_push] at hi
    have hx : a.slots.size ≠ i := by omega
    rw [ledger.removals_cons_of_ne hx, ledger.content_cons_of_ne hx]
    exact t.beyond i (by omega)
  nodup := List.nodup_nil
  vacant_iff i := by
    rw [Array.size_push]
    by_cases hx : a.slots.size = i
    · subst hx
      simp [ledger.content_cons_self, Deed.leaves]
    · have hold := t.vacant_iff i
      rw [hv] at hold
      rw [ledger.content_cons_of_ne hx, hold]
      exact and_congr_left' (by omega)

theorem insert (t : Tells ledger a) (item : α) :
    Tells ((a.next.index, .filled item) :: ledger) (a.insert item) := by
  rcases t.next with ⟨hv, hn⟩ | ⟨rest, hv, hlt, hnone⟩
  · rw [Arena.insert, hv, hn]
    exact t.push hv item
  · have hnodup := t.nodup
    rw [hv, List.nodup_cons] at hnodup
    rw [Arena.insert, hv]
    refine t.touch hlt rfl hnodup.2 (by simp [hnodup.1, Deed.leaves]) fun i hi => ?_
    rw [hv, List.mem_cons, or_iff_right (Ne.symm hi)]

theorem content_of_get? (t : Tells ledger a) {h : Handle} {x : α} (hx : a.get? h = some x) :
    h.index < a.slots.size ∧ ledger.content h.index = some x := by
  have hs := get?_eq_some_iff.mp hx
  have hlt := (Array.getElem?_eq_some_iff.mp hs).1
  rw [t.slot _ hlt, Option.some_inj, Slot.mk.injEq] at hs
  exact ⟨hlt, hs.2⟩

theorem modify (t : Tells ledger a) {h : Handle} {x : α} (hx : a.get? h = some x) (f : α → α) :
    Tells ((h.index, .changed f) :: ledger) (a.modify h f) := by
  have hlt := (t.content_of_get? hx).1
  have hc : a.contains h = true := by simp [contains, hx]
  rw [Arena.modify, if_pos hc]
  refine t.touch hlt rfl t.nodup ?_ fun i _ => Iff.rfl
  rw [t.vacant_iff, and_iff_right hlt, Deed.leaves, Option.map_eq_none_iff]

theorem remove (t : Tells ledger a) {h : Handle} {x : α} (hx : a.get? h = some x) :
    Tells ((h.index, .freed) :: ledger) (a.remove h) := by
  obtain ⟨hlt, hcontent⟩ := t.content_of_get? hx
  have hc : a.contains h = true := by simp [contains, hx]
  have hout : h.index ∉ a.vacant := by simp [t.vacant_iff, hcontent]
  rw [Arena.remove, if_pos hc]
  refine t.touch hlt ?_ (List.nodup_cons.mpr ⟨hout, t.nodup⟩) (by simp [Deed.leaves]) fun i hi => ?_
  · rw [ledger.removals_freed, UInt32.ofNat_add]
    rfl
  · rw [List.mem_cons, or_iff_right (Ne.symm hi)]

/-- The handle of the next item says how often its slot was freed. -/
theorem next_generation (t : Tells ledger a) :
    a.next.generation = .ofNat (ledger.removals a.next.index) := by
  rcases slot_next t.wellFormed with ⟨-, hn⟩ | ⟨i, rest, hv, hi, hs⟩
  · simp [hn, (t.beyond _ (Nat.le_refl _)).1]
  · have hlt := ((t.vacant_iff i).mp (by simp [hv])).1
    have hslot := t.slot i hlt
    rw [hs, Option.some_inj, Slot.mk.injEq] at hslot
    rw [hslot.1, hi]

theorem content_next (t : Tells ledger a) : ledger.content a.next.index = none := by
  rcases t.next with ⟨-, hn⟩ | ⟨-, -, -, hnone⟩
  · exact (t.beyond _ (Nat.le_of_eq hn.symm)).2
  · exact hnone

end Tells

/-- How many slots have an item. -/
def occupied (a : Arena α) : Nat :=
  a.slots.toList.countP fun slot => slot.item.isSome

theorem occupied_modify_slot {a : Arena α} {i : Nat} {slot : Slot α} (hs : a.slots[i]? = some slot)
    (f : Slot α → Slot α) (vacant : List Nat) (size : Nat) :
    occupied ⟨a.slots.modify i f, vacant, size⟩ + (if slot.item.isSome then 1 else 0) =
      a.occupied + if (f slot).item.isSome then 1 else 0 := by
  obtain ⟨hi, hget⟩ :=
    List.getElem?_eq_some_iff.mp (by simpa using hs : a.slots.toList[i]? = some slot)
  have hsplit : a.slots.toList = a.slots.toList.take i ++ slot :: a.slots.toList.drop (i + 1) := by
    rw [← hget, List.getElem_cons_drop, List.take_append_drop]
  have hmodified : (a.slots.modify i f).toList =
      a.slots.toList.take i ++ f slot :: a.slots.toList.drop (i + 1) := by
    rw [Array.toList_modify, List.modify_eq_take_cons_drop hi, hget]
  have hold : a.occupied = (a.slots.toList.take i ++ slot :: a.slots.toList.drop (i + 1)).countP
      fun slot => slot.item.isSome := by rw [← hsplit, occupied]
  rw [hold, occupied, hmodified]
  simp only [List.countP_append, List.countP_cons]
  omega

theorem occupied_insert {a : Arena α} (wf : a.WellFormed) (item : α) :
    (a.insert item).occupied = a.occupied + 1 := by
  rcases slot_next wf with ⟨hv, -⟩ | ⟨i, rest, hv, -, hs⟩
  · rw [insert, hv]
    simp [occupied]
  · have hcount :=
      occupied_modify_slot hs (fun slot => { slot with item := some item }) rest (a.size + 1)
    rw [insert, hv]
    simpa using hcount

theorem occupied_modify (a : Arena α) (h : Handle) (f : α → α) :
    (a.modify h f).occupied = a.occupied := by
  by_cases hc : a.contains h = true
  · obtain ⟨x, hs⟩ := contains_iff.mp hc
    have hcount :=
      occupied_modify_slot hs (fun slot => { slot with item := slot.item.map f }) a.vacant a.size
    rw [modify, if_pos hc]
    simpa using hcount
  · rw [modify, if_neg hc]

theorem occupied_remove {a : Arena α} {h : Handle} {x : α} (hx : a.get? h = some x) :
    (a.remove h).occupied + 1 = a.occupied := by
  have hc : a.contains h = true := by simp [contains, hx]
  have hcount :=
    occupied_modify_slot (get?_eq_some_iff.mp hx) (fun slot => ⟨slot.generation + 1, none⟩)
    (h.index :: a.vacant) (a.size - 1)
  rw [remove, if_pos hc]
  simpa using hcount

theorem size_insert (a : Arena α) (item : α) : (a.insert item).size = a.size + 1 := by
  unfold insert
  split <;> rfl

theorem size_modify (a : Arena α) (h : Handle) (f : α → α) : (a.modify h f).size = a.size := by
  unfold modify
  split <;> rfl

theorem size_remove {a : Arena α} {h : Handle} {x : α} (hx : a.get? h = some x) :
    (a.remove h).size = a.size - 1 := by
  have hc : a.contains h = true := by simp [contains, hx]
  rw [remove, if_pos hc]

theorem length_entries (a : Arena α) : a.entries.length = a.occupied := by
  have hsecond : (a.slots.toList.zipIdx.countP fun p => p.1.item.isSome) =
      (a.slots.toList.zipIdx.map Prod.fst).countP fun slot => slot.item.isSome := by
    rw [List.countP_map]
    rfl
  rw [entries, List.length_filterMap_eq_countP, occupied]
  simp only [Option.isSome_map]
  rw [hsecond, List.zipIdx_map_fst]

theorem mem_entries_iff {a : Arena α} {h : Handle} {x : α} :
    (h, x) ∈ a.entries ↔ a.get? h = some x := by
  rw [get?_eq_some_iff, entries, List.mem_filterMap]
  constructor
  · rintro ⟨⟨⟨g, item⟩, i⟩, hmem, hentry⟩
    have hslot := List.mk_mem_zipIdx_iff_getElem?.mp hmem
    obtain ⟨y, hy, heq⟩ := Option.map_eq_some_iff.mp hentry
    cases heq
    simp only at hy
    simpa [hy] using hslot
  · intro hs
    refine ⟨(⟨h.generation, some x⟩, h.index), ?_, rfl⟩
    rw [List.mk_mem_zipIdx_iff_getElem?]
    simpa using hs

/-- The entries come in the order of their slots, no two of one slot. -/
theorem entries_sorted (a : Arena α) : a.entries.Pairwise fun p q => p.1.index < q.1.index := by
  have hindices : (a.slots.toList.zipIdx.map Prod.snd).Pairwise (· < ·) := by
    rw [List.zipIdx_map_snd]
    exact List.pairwise_lt_range' 1
  rw [entries, List.pairwise_filterMap]
  refine (List.pairwise_map.mp hindices).imp fun hlt b hb b' hb' => ?_
  obtain ⟨_, -, rfl⟩ := Option.map_eq_some_iff.mp hb
  obtain ⟨_, -, rfl⟩ := Option.map_eq_some_iff.mp hb'
  exact hlt

/-- The arena is as its ledger tells, and its size is the number of the items that were put
in and not removed. -/
structure Account.Faithful (s : Account α) : Prop where
  tells : Tells s.ledger s.arena
  size : s.arena.size = s.arena.occupied
  counted : s.arena.size + s.ledger.allRemovals = s.ledger.insertions

theorem faithful_empty : (⟨empty, []⟩ : Account α).Faithful :=
  ⟨.empty, rfl, rfl⟩

namespace Account.Faithful

variable {s : Account α}

theorem insert (hs : s.Faithful) (item : α) :
    Faithful ⟨s.arena.insert item, ((s.arena.issued item).index, .filled item) :: s.ledger⟩ where
  tells := by
    rw [issued_eq_next hs.tells.wellFormed]
    exact hs.tells.insert item
  size := by
    dsimp only
    rw [size_insert, occupied_insert hs.tells.wellFormed, hs.size]
  counted := by
    have hcounted := hs.counted
    simp [Ledger.allRemovals, Ledger.insertions, size_insert] at hcounted ⊢
    omega

/-- An item that depends on its handle is put in like any other one. -/
theorem perform_insertWith (hs : s.Faithful) (item : Handle → α) :
    s.perform (.insertWith item) = s.perform (.insert (item s.arena.next)) := by
  have hnext := issued_eq_next hs.tells.wellFormed (item s.arena.next)
  simp only [Account.perform, Arena.perform, deed?, hnext]

theorem perform (hs : s.Faithful) (o : Operation α) : (s.perform o).Faithful := by
  cases o with
  | insert item => exact hs.insert item
  | insertWith item =>
    rw [hs.perform_insertWith]
    exact hs.insert (item s.arena.next)
  | lookup h => exact hs
  | update h f =>
    cases hx : s.arena.get? h with
    | none =>
      have hsame : s.arena.modify h f = s.arena := by simp [modify, contains, hx]
      simpa [Account.perform, Arena.perform, hx, deed?, hsame] using hs
    | some x =>
      have hrun : s.perform (.update h f) =
          ⟨s.arena.modify h f, (h.index, .changed f) :: s.ledger⟩ := by
        simp [Account.perform, Arena.perform, hx, deed?]
      rw [hrun]
      refine ⟨hs.tells.modify hx f, ?_, ?_⟩
      · dsimp only
        rw [size_modify, occupied_modify, hs.size]
      · simpa [Ledger.allRemovals, Ledger.insertions, size_modify] using hs.counted
  | remove h =>
    cases hx : s.arena.get? h with
    | none =>
      have hsame : s.arena.remove h = s.arena := by simp [remove, contains, hx]
      simpa [Account.perform, Arena.perform, hx, deed?, hsame] using hs
    | some x =>
      have hrun : s.perform (.remove h) = ⟨s.arena.remove h, (h.index, .freed) :: s.ledger⟩ := by
        simp [Account.perform, Arena.perform, hx, deed?]
      rw [hrun]
      have hfreed := occupied_remove hx
      have hsize := hs.size
      refine ⟨hs.tells.remove hx, ?_, ?_⟩
      · dsimp only
        rw [size_remove hx]
        omega
      · have hcounted := hs.counted
        simp [Ledger.allRemovals, Ledger.insertions, size_remove hx] at hcounted ⊢
        omega

end Account.Faithful

theorem faithful_foldl {s : Account α} (hs : s.Faithful) (operations : List (Operation α)) :
    (operations.foldl Account.perform s).Faithful := by
  induction operations generalizing s with
  | nil => exact hs
  | cons o operations ih => exact ih (hs.perform o)

theorem run_faithful (operations : List (Operation α)) : (run operations).Faithful :=
  faithful_foldl faithful_empty operations

/-- A series of operations only adds to the ledger. -/
theorem exists_ledger_foldl (s : Account α) (operations : List (Operation α)) :
    ∃ new, (operations.foldl Account.perform s).ledger = new ++ s.ledger := by
  induction operations generalizing s with
  | nil => exact ⟨[], rfl⟩
  | cons o operations ih =>
    obtain ⟨new, hnew⟩ := ih (s.perform o)
    exact ⟨new ++ (deed? o (s.arena.perform o).1).toList, by
      rw [List.foldl_cons, hnew, List.append_assoc]; rfl⟩

theorem Ledger.removals_append (new old : Ledger α) (i : Nat) :
    removals (new ++ old) i = removals new i + removals old i := by
  induction new with
  | nil => simp [removals]
  | cons entry new ih =>
    obtain ⟨j, d⟩ := entry
    cases d with
    | filled item => exact ih
    | changed f => exact ih
    | freed =>
      simp only [List.cons_append, removals, ih]
      omega

/-- A slot that is not freed keeps an item. -/
theorem Ledger.content_append_isSome {new old : Ledger α} {i : Nat} (hnone : removals new i = 0)
    (hold : (content old i).isSome) : (content (new ++ old) i).isSome := by
  induction new with
  | nil => exact hold
  | cons entry new ih =>
    obtain ⟨j, d⟩ := entry
    rw [List.cons_append, content]
    cases d with
    | filled item =>
      split
      · rfl
      · exact ih hnone
    | changed f =>
      split
      · rw [Deed.leaves, Option.isSome_map]
        exact ih hnone
      · exact ih hnone
    | freed =>
      simp only [removals, Nat.add_eq_zero_iff, ite_eq_right_iff, Nat.one_ne_zero,
        imp_false] at hnone
      rw [if_neg hnone.2]
      exact ih hnone.1

/-- An arena that agrees with what its answers said. -/
structure Account.Exact (s : Account α) : Prop where
  lookup : ∀ h x, (s.arena.perform (.lookup h)).1 = .item (some x) ↔ s.ledger.Holds h x
  update : ∀ h f y, (s.arena.perform (.update h f)).1 = .item (some y) ↔
    ∃ x, s.ledger.Holds h x ∧ f x = y
  remove : ∀ h x, (s.arena.perform (.remove h)).1 = .item (some x) ↔ s.ledger.Holds h x
  contains : ∀ h, s.arena.contains h = true ↔ ∃ x, s.ledger.Holds h x
  next : s.arena.get? s.arena.next = none
  issued : ∀ item, s.arena.issued item = s.arena.next
  insert : ∀ item h, (s.arena.insert item).get? h =
    if h = s.arena.next then some item else s.arena.get? h
  vacant_nodup : s.arena.vacant.Nodup
  vacant_iff : ∀ i, i ∈ s.arena.vacant ↔ ∃ slot, s.arena.slots[i]? = some slot ∧ slot.item = none
  size : s.arena.size = s.arena.occupied
  counted : s.arena.size + s.ledger.allRemovals = s.ledger.insertions
  length : s.arena.entries.length = s.arena.size
  entries : ∀ h x, (h, x) ∈ s.arena.entries ↔ s.ledger.Holds h x
  sorted : s.arena.entries.Pairwise fun p q => p.1.index < q.1.index

theorem Account.Faithful.exact {s : Account α} (hs : s.Faithful) : s.Exact where
  lookup h x := by rw [Arena.perform, Answer.item.injEq, hs.tells.get?_iff]
  update h f y := by
    simp only [Arena.perform, Answer.item.injEq, Option.map_eq_some_iff, hs.tells.get?_iff]
  remove h x := by rw [Arena.perform, Answer.item.injEq, hs.tells.get?_iff]
  contains h := by simp only [Arena.contains, Option.isSome_iff_exists, hs.tells.get?_iff]
  next := get?_next hs.tells.wellFormed
  issued := issued_eq_next hs.tells.wellFormed
  insert item h := by
    split
    · next hn => rw [hn, get?_insert_next hs.tells.wellFormed]
    · next hn => exact get?_insert_of_ne hs.tells.wellFormed item hn
  vacant_nodup := hs.tells.nodup
  vacant_iff i := by
    rw [hs.tells.vacant_iff]
    constructor
    · rintro ⟨hlt, hnone⟩
      exact ⟨_, hs.tells.slot i hlt, hnone⟩
    · rintro ⟨slot, hslot, hnone⟩
      have hlt := (Array.getElem?_eq_some_iff.mp hslot).1
      rw [hs.tells.slot i hlt, Option.some_inj] at hslot
      exact ⟨hlt, by rw [← hslot] at hnone; exact hnone⟩
  size := hs.size
  counted := hs.counted
  length := (length_entries s.arena).trans hs.size.symm
  entries h x := by rw [mem_entries_iff, hs.tells.get?_iff]
  sorted := entries_sorted s.arena

/-- A handle of a slot that was freed since, but not often enough to come to the same
generation, finds nothing. -/
theorem Tells.get?_eq_none_of_freed {ledger old : Ledger α} {a : Arena α} (t : Tells ledger a)
    {h : Handle} (hold : old.removals h.index % 2 ^ 32 = h.generation.toNat)
    (hmore : old.removals h.index < ledger.removals h.index)
    (hless : ledger.removals h.index < old.removals h.index + 2 ^ 32) : a.get? h = none := by
  cases hx : a.get? h with
  | none => rfl
  | some x =>
    have hnow := ((t.get?_iff h x).mp hx).2
    omega

theorem removals_perform_remove {s : Account α} {h : Handle} {x : α}
    (hx : s.arena.get? h = some x) :
    (s.perform (.remove h)).ledger.removals h.index = s.ledger.removals h.index + 1 := by
  simp [Account.perform, perform, hx, deed?, Ledger.removals]

theorem perform_handle {s : Account α} (hs : s.Faithful) {o : Operation α} {h : Handle}
    (ho : (s.arena.perform o).1 = .handle h) :
    h = s.arena.next ∧
      ∃ item, s.perform o = ⟨s.arena.insert item, (h.index, .filled item) :: s.ledger⟩ := by
  have hnext (item : α) : s.arena.issued item = s.arena.next :=
    issued_eq_next hs.tells.wellFormed item
  cases o with
  | insert item =>
    cases ho
    exact ⟨hnext item, item, rfl⟩
  | insertWith item =>
    cases ho
    exact ⟨hnext _, item s.arena.next, hs.perform_insertWith item⟩
  | lookup k => cases ho
  | update k f => cases ho
  | remove k => cases ho

/-- While its slot is freed less often than there are generations, a handle is not issued again: if
the slot is not freed at all, it is not vacant. -/
theorem next_ne_of_issued {s s' : Account α} (hs' : s'.Faithful) {new : Ledger α}
    {h : Handle} {item : α} (hnew : s'.ledger = new ++ (h.index, .filled item) :: s.ledger)
    (hgeneration : s.ledger.removals h.index % 2 ^ 32 = h.generation.toNat)
    (hless : s'.ledger.removals h.index < s.ledger.removals h.index + 2 ^ 32) :
    h ≠ s'.arena.next := by
  intro heq
  have hcontent := hs'.tells.content_next
  have hnow := congrArg UInt32.toNat hs'.tells.next_generation
  rw [← heq] at hcontent hnow
  rw [UInt32.toNat_ofNat'] at hnow
  have hsum : s'.ledger.removals h.index = new.removals h.index + s.ledger.removals h.index := by
    rw [hnew, Ledger.removals_append]
    rfl
  have hnone : new.removals h.index = 0 := by omega
  have hfilled : (Ledger.content ((h.index, .filled item) :: s.ledger) h.index).isSome := by
    simp [Ledger.content, Deed.leaves]
  have hkept := Ledger.content_append_isSome hnone hfilled
  rw [← hnew, hcontent] at hkept
  cases hkept

/-- An arena is exact after every series of operations. A handle that was removed finds nothing
before its slot has been freed as often again as there are generations, and until then no
handle is issued twice. -/
theorem run_exact (operations : List (Operation α)) :
    (run operations).Exact ∧
    (∀ h x later, (run operations).arena.get? h = some x →
      (run (operations ++ .remove h :: later)).ledger.removals h.index <
        (run (operations ++ [.remove h])).ledger.removals h.index + (2 ^ 32 - 1) →
      (run (operations ++ .remove h :: later)).arena.get? h = none) ∧
    ∀ o later o' h h', ((run operations).arena.perform o).1 = .handle h →
      ((run (operations ++ o :: later)).arena.perform o').1 = .handle h' →
      (run (operations ++ o :: later)).ledger.removals h.index <
        (run operations).ledger.removals h.index + 2 ^ 32 → h ≠ h' := by
  have hs := run_faithful operations
  refine ⟨hs.exact, fun h x later hx hless => ?_, fun o later o' h h' ho ho' hless => ?_⟩
  · have hlater := run_faithful (operations ++ .remove h :: later)
    obtain ⟨new, hnew⟩ := exists_ledger_foldl ((run operations).perform (.remove h)) later
    have hfreed := removals_perform_remove hx
    have hfirst : (run (operations ++ [.remove h])).ledger.removals h.index =
        (run operations).ledger.removals h.index + 1 := by rw [run_append]; exact hfreed
    have hsum : (run (operations ++ .remove h :: later)).ledger.removals h.index =
        new.removals h.index + ((run operations).ledger.removals h.index + 1) := by
      rw [run_append, List.foldl_cons, hnew, Ledger.removals_append, hfreed]
    exact hlater.tells.get?_eq_none_of_freed ((hs.tells.get?_iff h x).mp hx).2 (by omega) (by omega)
  · have hlater := run_faithful (operations ++ o :: later)
    obtain ⟨rfl, item, hperform⟩ := perform_handle hs ho
    obtain ⟨rfl, -⟩ := perform_handle hlater ho'
    obtain ⟨new, hnew⟩ := exists_ledger_foldl ((run operations).perform o) later
    rw [← List.foldl_cons, ← run_append, hperform] at hnew
    have hgeneration := congrArg UInt32.toNat hs.tells.next_generation
    rw [UInt32.toNat_ofNat'] at hgeneration
    exact next_ne_of_issued hlater hnew hgeneration.symm hless

/-- A slot that is freed is used again. Its first handle finds nothing then, and the
second one is another. -/
theorem run_exact_reused :
    (run [.insert "a", .remove ⟨0, 0⟩, .insert "b"]).arena.get? ⟨0, 0⟩ = none ∧
      (run ([] : List (Operation String))).arena.next ≠
        (run ([.insert "a", .remove ⟨0, 0⟩] : List (Operation String))).arena.next := by
  constructor
  · exact (run_exact [.insert "a"]).2.1 ⟨0, 0⟩ "a" [.insert "b"] (by decide) (by decide)
  · exact (run_exact []).2.2 (.insert "a") [.remove ⟨0, 0⟩] (.insert "b") _ _ rfl rfl (by decide)

end Arena

end InterfaceCatalog
