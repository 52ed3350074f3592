import Mathlib.Data.Set.Card
import InterfaceCatalog.Session
import InterfaceCatalog.Proofs.Association

namespace InterfaceCatalog

namespace Sessions

/-- What is asked of the sessions: a new state, another holder of a state, or that a holder goes. A
name under which something is stored lets go of what it held before. -/
inductive Request where
  | new (name : String) (settings : Settings)
  | clone (name other : String)
  | database (name other : String)
  | drop (name : String)

def serve (s : Sessions) : Request → Sessions
  | .new name settings => s.create name settings
  | .clone name other | .database name other => (s.share? name other).getD s
  | .drop name => s.drop name

def run (requests : List Request) : Sessions :=
  requests.foldl serve {}

/-- The settings of the states that were created, in order, and which of them each name holds. -/
structure Ledger where
  opened : List Settings := []
  holds : String → Option Nat := fun _ => none

namespace Ledger

def hold (l : Ledger) (name : String) (state : Option Nat) : Ledger :=
  { l with holds := Function.update l.holds name state }

/-- Nothing is shared if there is nothing to share. -/
def share (l : Ledger) (name other : String) : Ledger :=
  match l.holds other with
  | none => l
  | some i => l.hold name (some i)

def note (l : Ledger) : Request → Ledger
  | .new name settings =>
    { l with opened := l.opened ++ [settings] }.hold name (some l.opened.length)
  | .clone name other | .database name other => l.share name other
  | .drop name => l.hold name none

def ofRequests (requests : List Request) : Ledger :=
  requests.foldl note {}

def Held (l : Ledger) (i : Nat) : Prop :=
  ∃ name, l.holds name = some i

theorem holds_hold (l : Ledger) (name other : String) (state : Option Nat) :
    (l.hold name state).holds other = if other = name then state else l.holds other :=
  Function.update_apply _ _ _ _

end Ledger

/-- A state tells how often it is held. It is shut down when that is not any more. -/
structure IsTally (held : List Nat) (i : Nat) (state : SessionState) : Prop where
  holders : state.holders = held.count i
  shutDowns : state.shutDowns = if i ∈ held then 0 else 1

theorem isTally_cons_of_ne {held : List Nat} {i k : Nat} (hki : k ≠ i) {state : SessionState} :
    IsTally (i :: held) k state ↔ IsTally held k state := by
  constructor
  · rintro ⟨hh, hs⟩
    exact ⟨by simpa [List.count_cons_of_ne (Ne.symm hki)] using hh, by simpa [hki] using hs⟩
  · rintro ⟨hh, hs⟩
    exact ⟨by simpa [List.count_cons_of_ne (Ne.symm hki)] using hh, by simpa [hki] using hs⟩

/-- The states tell how often each of them is held, and as many are active as are held at all. -/
structure Tallied (s : Sessions) (held : List Nat) : Prop where
  known : ∀ i ∈ held, i < s.states.length
  tally : ∀ i state, s.states[i]? = some state → IsTally held i state
  active : s.active = held.toFinset.card

namespace Tallied

variable {s : Sessions} {held held' : List Nat} {i : Nat}

theorem perm (h : s.Tallied held) (hp : held.Perm held') : s.Tallied held' where
  known k hk := h.known k (hp.mem_iff.mpr hk)
  tally k state hk := by
    obtain ⟨hh, hs⟩ := h.tally k state hk
    refine ⟨hh.trans (hp.count_eq k), hs.trans ?_⟩
    simp only [hp.mem_iff]
  active := by rw [h.active, List.toFinset_eq_of_perm _ _ hp]

theorem empty : Tallied {} [] where
  known := by simp
  tally := by simp
  active := rfl

/-- A new state is held once. -/
theorem create (h : s.Tallied held) (settings : Settings) :
    Tallied { s with states := s.states ++ [⟨settings, 1, 0⟩], active := s.active + 1 }
      (s.states.length :: held) := by
  have hnew : s.states.length ∉ held := fun hmem => Nat.lt_irrefl _ (h.known _ hmem)
  refine ⟨fun k hk => ?_, fun k state hk => ?_, ?_⟩
  · rw [List.length_append, List.length_singleton]
    rcases List.mem_cons.mp hk with rfl | hk
    · exact Nat.lt_succ_self _
    · exact Nat.lt_succ_of_lt (h.known k hk)
  · by_cases hlt : k < s.states.length
    · rw [List.getElem?_append_left hlt] at hk
      exact (isTally_cons_of_ne (Nat.ne_of_lt hlt)).mpr (h.tally k state hk)
    · rw [List.getElem?_append_right (by omega)] at hk
      obtain ⟨hzero, rfl⟩ : k - s.states.length = 0 ∧ ⟨settings, 1, 0⟩ = state := by
        simpa [List.getElem?_singleton] using hk
      obtain rfl : k = s.states.length := by omega
      exact ⟨by simp [List.count_eq_zero.mpr hnew], by simp⟩
  · rw [List.toFinset_cons, Finset.card_insert_of_notMem (by simpa using hnew), ← h.active]

/-- A state that is held is held once more. -/
theorem join (h : s.Tallied held) (hi : i ∈ held) : (s.join i).Tallied (i :: held) := by
  refine ⟨fun k hk => ?_, fun k state hk => ?_, ?_⟩
  · have hheld : k ∈ held := by
      rcases List.mem_cons.mp hk with rfl | hk
      · exact hi
      · exact hk
    simpa [Sessions.join] using h.known k hheld
  · rw [Sessions.join, List.getElem?_modify] at hk
    obtain ⟨old, hold, rfl⟩ := Option.map_eq_some_iff.mp hk
    have htally := h.tally k old hold
    by_cases hki : k = i
    · subst hki
      exact ⟨by simp [htally.holders], by simpa [hi] using htally.shutDowns⟩
    · rw [if_neg (Ne.symm hki)]
      exact (isTally_cons_of_ne hki).mpr htally
  · have hset : (i :: held).toFinset = held.toFinset := by simpa using hi
    rw [hset]
    exact h.active

/-- A state that is held once less is shut down if that was the last time. -/
theorem leave (h : s.Tallied (i :: held)) : (s.leave i).Tallied held := by
  have hlt : i < s.states.length := h.known i List.mem_cons_self
  have hstate : s.states[i]? = some s.states[i] := List.getElem?_eq_getElem hlt
  have hold := h.tally i _ hstate
  have hcount : s.states[i].holders = held.count i + 1 := by simpa using hold.holders
  have hopen : s.states[i].shutDowns = 0 := by simpa using hold.shutDowns
  have hactive : s.active = (insert i held.toFinset).card := by simpa using h.active
  have hleft : s.leave i = { s with
      states := s.states.set i ⟨s.states[i].settings, held.count i, if i ∈ held then 0 else 1⟩
      active := held.toFinset.card } := by
    unfold Sessions.leave
    rw [hstate]
    dsimp only
    rw [hcount, hopen, Nat.add_sub_cancel]
    by_cases hi : i ∈ held
    · have hne : held.count i ≠ 0 := (List.count_pos_iff.mpr hi).ne'
      rw [Finset.insert_eq_self.mpr (List.mem_toFinset.mpr hi)] at hactive
      rw [if_neg hne]
      simp [hi, hactive]
    · have hzero : held.count i = 0 := List.count_eq_zero.mpr hi
      rw [Finset.card_insert_of_notMem (by simpa using hi)] at hactive
      simp [hzero, hi, hactive]
  rw [hleft]
  refine ⟨fun k hk => ?_, fun k state hk => ?_, rfl⟩
  · simpa using h.known k (List.mem_cons_of_mem _ hk)
  · by_cases hki : k = i
    · subst hki
      simp only [List.getElem?_set_self hlt, Option.some.injEq] at hk
      subst hk
      exact ⟨rfl, rfl⟩
    · rw [List.getElem?_set_ne (Ne.symm hki)] at hk
      exact (isTally_cons_of_ne hki).mp (h.tally k state hk)

end Tallied

/-- Sessions agree with the ledger, where some states are held beside the names. -/
structure Agrees (s : Sessions) (l : Ledger) (beside : List Nat) : Prop where
  nodup : (s.holders.map Prod.fst).Nodup
  tallied : s.Tallied (beside ++ s.holders.map Prod.snd)
  heldBy : ∀ name, s.heldBy? name = l.holds name
  settings : s.states.map SessionState.settings = l.opened

namespace Agrees

variable {s : Sessions} {l : Ledger} {beside : List Nat} {name other : String} {i : Nat}

theorem empty : Agrees {} {} [] where
  nodup := .nil
  tallied := .empty
  heldBy _ := rfl
  settings := rfl

theorem mem_holders_iff (h : s.Agrees l beside) : i ∈ s.holders.map Prod.snd ↔ l.Held i := by
  constructor
  · intro hi
    obtain ⟨⟨name, k⟩, hmem, rfl⟩ := List.mem_map.mp hi
    exact ⟨name, (h.heldBy name).symm.trans (lookup_of_mem h.nodup hmem)⟩
  · rintro ⟨name, hname⟩
    exact List.mem_map.mpr ⟨_, mem_of_lookup ((h.heldBy name).trans hname), rfl⟩

theorem leave_settings (s : Sessions) (i : Nat) :
    (s.leave i).states.map SessionState.settings = s.states.map SessionState.settings := by
  have hset {state state' : SessionState} (hs : s.states[i]? = some state)
      (he : state'.settings = state.settings) :
      (s.states.set i state').map SessionState.settings = s.states.map SessionState.settings := by
    obtain ⟨hlt, rfl⟩ := List.getElem?_eq_some_iff.mp hs
    have hlength : i < (s.states.map SessionState.settings).length := by simpa using hlt
    have hsame : (s.states.map SessionState.settings)[i] = s.states[i].settings :=
      List.getElem_map _
    rw [List.map_set, he, ← hsame, List.set_getElem_self]
  unfold Sessions.leave
  split
  · rfl
  · next state hs =>
    dsimp only
    split
    · exact hset hs rfl
    · exact hset hs rfl

theorem join_settings (s : Sessions) (i : Nat) :
    (s.join i).states.map SessionState.settings = s.states.map SessionState.settings := by
  refine List.ext_getElem? fun k => ?_
  rw [Sessions.join, List.getElem?_map, List.getElem?_modify, List.getElem?_map]
  by_cases hik : i = k
  · cases s.states[k]? <;> simp [hik]
  · simp [hik]

theorem leave_holders (s : Sessions) (i : Nat) : (s.leave i).holders = s.holders := by
  unfold Sessions.leave
  split
  · rfl
  · dsimp only
    split <;> rfl

/-- A name lets go of what it holds, if that is something. -/
theorem drop (h : s.Agrees l beside) (name : String) :
    (s.drop name).Agrees (l.hold name none) beside := by
  unfold Sessions.drop
  cases hname : s.heldBy? name with
  | none =>
    have hnone : l.hold name none = l := by
      have hsame : Function.update l.holds name none = l.holds := by
        rw [Function.update_eq_self_iff, ← h.heldBy, hname]
      rw [Ledger.hold, hsame]
    rw [hnone]
    exact h
  | some i =>
    dsimp only
    have hperm := perm_filter_of_lookup h.nodup hname
    refine ⟨?_, ?_, fun other => ?_, ?_⟩
    · rw [leave_holders]
      exact h.nodup.sublist (List.filter_sublist.map _)
    · rw [leave_holders]
      have htallied := h.tallied.perm ((hperm.append_left beside).trans List.perm_middle)
      exact Tallied.leave ⟨htallied.known, htallied.tally, htallied.active⟩
    · rw [heldBy?, leave_holders, lookup_filter, Ledger.holds_hold, ← h.heldBy]
      rfl
    · rw [leave_settings]
      exact h.settings

/-- What is held beside the names is held by one of them then. -/
theorem bind (h : s.Agrees l [i]) (name : String) :
    (s.bind name i).Agrees (l.hold name (some i)) [] := by
  have hdrop := h.drop name
  have hnone : (s.drop name).heldBy? name = none := by simp [hdrop.heldBy, Ledger.holds_hold]
  unfold Sessions.bind
  dsimp only
  generalize s.drop name = dropped at hdrop hnone
  refine ⟨?_, ?_, fun other => ?_, hdrop.settings⟩
  · rw [List.map_append, List.nodup_append]
    refine ⟨hdrop.nodup, by simp, ?_⟩
    rintro first hfirst other hother rfl
    obtain rfl : first = name := by simpa using hother
    obtain ⟨⟨_, k⟩, hmem, rfl⟩ := List.mem_map.mp hfirst
    rw [heldBy?, lookup_of_mem hdrop.nodup hmem] at hnone
    cases hnone
  · have hperm : ([i] ++ dropped.holders.map Prod.snd).Perm
        ([] ++ (dropped.holders ++ [(name, i)]).map Prod.snd) := by
      simpa using @List.perm_append_comm _ [i] (dropped.holders.map Prod.snd)
    have htallied := hdrop.tallied.perm hperm
    exact ⟨htallied.known, htallied.tally, htallied.active⟩
  · have hother := hdrop.heldBy other
    rw [Ledger.holds_hold] at hother ⊢
    rw [heldBy?] at hother ⊢
    rw [List.lookup_append, hother]
    by_cases hon : other = name
    · simp [hon]
    · simp [hon, List.lookup_cons, beq_eq_false_iff_ne.mpr hon]

theorem create (h : s.Agrees l []) (name : String) (settings : Settings) :
    (s.create name settings).Agrees (l.note (.new name settings)) [] := by
  have hlength : s.states.length = l.opened.length := by rw [← h.settings, List.length_map]
  have hopened : Agrees { s with states := s.states ++ [⟨settings, 1, 0⟩], active := s.active + 1 }
      { l with opened := l.opened ++ [settings] } [s.states.length] := by
    have htallied := h.tallied.create settings
    exact ⟨h.nodup, htallied, h.heldBy, by simp [h.settings]⟩
  have hbound := hopened.bind name
  rw [hlength] at hbound
  unfold Sessions.create
  rw [hlength]
  exact hbound

theorem share (h : s.Agrees l []) (name other : String) :
    ((s.share? name other).getD s).Agrees (l.share name other) [] := by
  unfold Sessions.share? Ledger.share
  rw [h.heldBy]
  cases hother : l.holds other with
  | none => exact h
  | some i =>
    have hheld : i ∈ s.holders.map Prod.snd := h.mem_holders_iff.mpr ⟨other, hother⟩
    have hjoined : (s.join i).Agrees l [i] := by
      refine ⟨h.nodup, ?_, h.heldBy, ?_⟩
      · exact h.tallied.join hheld
      · rw [join_settings]
        exact h.settings
    exact hjoined.bind name

/-- One request keeps sessions and ledger in agreement. -/
theorem serve (h : s.Agrees l []) (request : Request) :
    (s.serve request).Agrees (l.note request) [] := by
  cases request with
  | new name settings => exact h.create name settings
  | clone name other => exact h.share name other
  | database name other => exact h.share name other
  | drop name => exact h.drop name

end Agrees

theorem agrees_run (requests : List Request) : (run requests).Agrees (.ofRequests requests) [] := by
  have hall (rest : List Request) {s : Sessions} {l : Ledger} (h : s.Agrees l []) :
      (rest.foldl Sessions.serve s).Agrees (rest.foldl Ledger.note l) [] := by
    induction rest generalizing s l with
    | nil => exact h
    | cons request rest ih => exact ih (h.serve request)
  exact hall requests .empty

/-- The settings of a new state. -/
def Request.opens? : Request → Option Settings
  | .new _ settings => some settings
  | .clone .. | .database .. | .drop _ => none

theorem Ledger.opened_share (l : Ledger) (name other : String) :
    (l.share name other).opened = l.opened := by
  unfold share
  split <;> rfl

theorem Ledger.opened_note (l : Ledger) (request : Request) :
    (l.note request).opened = l.opened ++ request.opens?.toList := by
  cases request with
  | new name settings => rfl
  | clone name other | database name other => simp [note, opened_share, Request.opens?]
  | drop name => simp [Ledger.note, Ledger.hold, Request.opens?]

theorem Ledger.opened_ofRequests (requests : List Request) :
    (ofRequests requests).opened = requests.filterMap Request.opens? := by
  induction requests using List.reverseRecOn with
  | nil => rfl
  | append_singleton requests request ih =>
    rw [ofRequests, List.foldl_append] at *
    rw [List.foldl_cons, List.foldl_nil, opened_note, ih, List.filterMap_append]
    cases request <;> rfl

namespace Agrees

variable {s : Sessions} {l : Ledger} {i : Nat}

theorem ncard_held (h : s.Agrees l []) : {i | l.Held i}.ncard = s.active := by
  have hset : {i | l.Held i} = ((s.holders.map Prod.snd).toFinset : Set Nat) := by
    ext i
    simpa using h.mem_holders_iff.symm
  rw [hset, Set.ncard_coe_finset]
  exact h.tallied.active.symm

theorem shutDowns (h : s.Agrees l []) {state : SessionState} (hs : s.states[i]? = some state) :
    (l.Held i → state.shutDowns = 0) ∧ (¬ l.Held i → state.shutDowns = 1) := by
  have hclosed := (h.tallied.tally i state hs).shutDowns
  rw [List.nil_append] at hclosed
  constructor
  · intro hheld
    rwa [if_pos (h.mem_holders_iff.mpr hheld)] at hclosed
  · intro hfree
    rwa [if_neg (mt h.mem_holders_iff.mp hfree)] at hclosed

theorem settings? (h : s.Agrees l []) (name : String) :
    s.settings? name = (l.holds name).bind fun i => l.opened[i]? := by
  unfold Sessions.settings?
  rw [h.heldBy, ← h.settings]
  cases l.holds name with
  | none => rfl
  | some i =>
    rw [Option.bind_some, List.getElem?_map]
    cases hs : s.states[i]? <;> simp [hs]

end Agrees

/-- A state that no one holds any more is held by no one again. -/
theorem Ledger.held_of_held_note {l : Ledger} {request : Request} {i : Nat}
    (hi : i < l.opened.length) (h : (l.note request).Held i) : l.Held i := by
  obtain ⟨name, hname⟩ := h
  have hof (other : String) (state : Option Nat) (h : (l.hold other state).holds name = some i)
      (hstate : state = some i → l.Held i) : l.Held i := by
    rw [holds_hold] at h
    split at h
    · exact hstate h
    · exact ⟨name, h⟩
  cases request with
  | new other settings =>
    refine hof other (some l.opened.length) hname fun he => ?_
    cases he
    exact absurd hi (Nat.lt_irrefl _)
  | clone first other | database first other =>
    replace hname : (l.share first other).holds name = some i := hname
    unfold share at hname
    split at hname
    · exact ⟨name, hname⟩
    · next k hk => exact hof first (some k) hname fun he => ⟨other, hk.trans he⟩
  | drop other => exact hof other none hname fun he => by cases he

/-- The lifetimes of states. As many are active as are held by some name; each name that holds one
reads the settings that it was created with; a state is not shut down as long as it is held and is
shut down once from then on, namely by the request that lets the last of its holders go. -/
theorem run_lifetimes (requests : List Request) :
    let l := Ledger.ofRequests requests
    let s := run requests
    l.opened = requests.filterMap Request.opens? ∧ s.states.length = l.opened.length ∧
    s.active = {i | l.Held i}.ncard ∧ (∀ i, l.Held i → i < l.opened.length) ∧
    (∀ name, s.settings? name = (l.holds name).bind fun i => l.opened[i]?) ∧
    (∀ i state, s.states[i]? = some state →
      (l.Held i → state.shutDowns = 0) ∧ (¬ l.Held i → state.shutDowns = 1)) ∧
    ∀ request i state, s.states[i]? = some state →
      ∃ state', (s.serve request).states[i]? = some state' ∧
        (state'.shutDowns = state.shutDowns ∨ state'.shutDowns = state.shutDowns + 1) ∧
        (state'.shutDowns = state.shutDowns + 1 ↔ l.Held i ∧ ¬ (l.note request).Held i) := by
  intro l s
  have h : s.Agrees l [] := agrees_run requests
  have hlength : s.states.length = l.opened.length := by rw [← h.settings, List.length_map]
  refine ⟨Ledger.opened_ofRequests requests, hlength, h.ncard_held.symm, fun i hi => ?_,
    h.settings?, fun i state hs => h.shutDowns hs, fun request i state hs => ?_⟩
  · rw [← hlength]
    exact h.tallied.known i (h.mem_holders_iff.mpr hi)
  · have hafter := h.serve request
    have hi : i < l.opened.length := hlength ▸ (List.getElem?_eq_some_iff.mp hs).1
    have hi' : i < (s.serve request).states.length := by
      have hopened : (s.serve request).states.length = (l.note request).opened.length := by
        rw [← hafter.settings, List.length_map]
      rw [hopened, Ledger.opened_note, List.length_append]
      omega
    have hs' : (s.serve request).states[i]? = some (s.serve request).states[i] :=
      List.getElem?_eq_getElem hi'
    have hold := h.shutDowns hs
    have hnew := hafter.shutDowns hs'
    have hback : (l.note request).Held i → l.Held i := Ledger.held_of_held_note hi
    refine ⟨_, hs', ?_⟩
    by_cases hheld : l.Held i
    · have hzero := hold.1 hheld
      by_cases hheld' : (l.note request).Held i
      · have hzero' := hnew.1 hheld'
        exact ⟨.inl (by omega), by simp [hheld', hzero, hzero']⟩
      · have hone := hnew.2 hheld'
        exact ⟨.inr (by omega), by simp [hheld, hheld', hzero, hone]⟩
    · have hone := hold.2 hheld
      have hone' := hnew.2 (mt hback hheld)
      exact ⟨.inl (by omega), by simp [hheld, hone, hone']⟩

/-- A database keeps the state of its session alive. -/
example : (run [.new "a" {}, .database "b" "a", .drop "a"]).active = 1 ∧
    (run [.new "a" {}, .database "b" "a", .drop "a", .new "b" {}]).active = 1 := by decide

end Sessions

end InterfaceCatalog
