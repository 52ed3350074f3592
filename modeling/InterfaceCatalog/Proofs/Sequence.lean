import InterfaceCatalog.Sequence

namespace InterfaceCatalog

namespace Sequence

variable {α : Type}

inductive Call where
  | next | collect | take (n : Nat) | sizeHint | release | drop
  deriving DecidableEq

inductive Reply (α : Type) where
  | item (found : Option α)
  | items (found : List α)
  | promise (least : Nat) (greatest : Option Nat)
  | done
  deriving DecidableEq

/-- The items that a reply hands out. -/
def Reply.handed : Reply α → List α
  | .item found => found.toList
  | .items found => found
  | .promise .. | .done => []

/-- Items are collected as long as there is an answer. A sequence that is dropped has
released its source. -/
def Call.perform (s : Sequence α) : Call → Option (Reply α × Sequence α)
  | .next => some (.item s.next.1, s.next.2)
  | .collect => s.rest.map fun (items, s) => (.items items, s)
  | .take n => some (.items (s.take n).1, (s.take n).2)
  | .sizeHint => some (.promise s.sizeHint.1 s.sizeHint.2, s)
  | .release | .drop => some (.done, s.release)

structure Exchange (α : Type) where
  call : Call
  reply : Reply α
  deriving DecidableEq

/-- A series of calls with their replies, and what has become of the sequence. -/
def run : List Call → Sequence α → Option (List (Exchange α) × Sequence α)
  | [], s => some ([], s)
  | call :: calls, s => do
    let (reply, s) ← call.perform s
    let (history, s) ← run calls s
    return (⟨call, reply⟩ :: history, s)

/-- How far a sequence has come. It is running until its source reports an end, or
until it is let go. -/
inductive Stage where
  | running | ended | left
  deriving DecidableEq

/-- Only a sequence that is running comes to another stage. -/
def Stage.andThen : Stage → Stage → Stage
  | .running, next => next
  | stage, _ => stage

@[simp] theorem Stage.andThen_running (stage : Stage) : stage.andThen .running = stage := by
  cases stage <;> rfl

theorem Stage.andThen_of_ne {stage : Stage} (h : stage ≠ .running) (next : Stage) :
    stage.andThen next = stage := by
  cases stage with
  | running => exact absurd rfl h
  | ended => rfl
  | left => rfl

/-- What an exchange brings a running sequence to. Less items than were asked for report an end. -/
def Exchange.stage : Exchange α → Stage
  | ⟨.next, .item none⟩ | ⟨.collect, _⟩ => .ended
  | ⟨.take n, .items items⟩ => if items.length < n then .ended else .running
  | ⟨.release, _⟩ | ⟨.drop, _⟩ => .left
  | _ => .running

def handedOut (history : List (Exchange α)) : List α :=
  history.flatMap fun e => e.reply.handed

/-- The first exchange that ends a sequence tells its stage. -/
def stageOf (history : List (Exchange α)) : Stage :=
  history.foldl (fun stage e => stage.andThen e.stage) .running

/-- A sequence has handed out items of a source, and has come to a stage. -/
structure Follows (source : ItemSource α) (items : List α) (stage : Stage) (s : Sequence α) :
    Prop where
  given : ∀ k item, items[k]? = some item → source.answer k = some item
  running : stage = .running → s = ⟨some source, items.length, 0⟩
  finished : stage ≠ .running → s.source = none ∧ s.releases = 1
  ended : stage = .ended → source.answer items.length = none

namespace Follows

variable {source : ItemSource α} {items : List α} {stage : Stage} {s : Sequence α}

theorem ofSource (source : ItemSource α) : Follows source [] .running (.ofSource source) where
  given := by simp
  running _ := rfl
  finished h := absurd rfl h
  ended h := by cases h

theorem next_finished (h : Follows source items stage s) (hstage : stage ≠ .running) :
    s.next = (none, s) := by
  unfold Sequence.next
  rw [(h.finished hstage).1]

theorem next_running (h : Follows source items .running s) :
    s.next.1 = source.answer items.length := by
  rw [h.running rfl]
  cases hanswer : source.answer items.length <;> simp [Sequence.next, hanswer]

/-- An item that the source answers is handed out next. -/
theorem next_item (h : Follows source items stage s) {item : α} {s' : Sequence α}
    (hnext : s.next = (some item, s')) :
    stage = .running ∧ Follows source (items ++ [item]) .running s' := by
  by_cases hstage : stage = .running
  · subst hstage
    have hanswer : source.answer items.length = some item := by rw [← h.next_running, hnext]
    refine ⟨rfl, fun k other hk => ?_, fun _ => ?_, fun hne => absurd rfl hne,
      fun he => by cases he⟩
    · rcases Nat.lt_trichotomy k items.length with hlt | heq | hgt
      · rw [List.getElem?_append_left hlt] at hk
        exact h.given k other hk
      · subst heq
        simp only [List.getElem?_concat_length, Option.some.injEq] at hk
        rwa [← hk]
      · rw [List.getElem?_eq_none (by simp; omega)] at hk
        cases hk
    · rw [h.running rfl] at hnext
      unfold Sequence.next at hnext
      simp only [hanswer, Prod.mk.injEq, true_and] at hnext
      rw [← hnext, List.length_append, List.length_singleton]
  · rw [h.next_finished hstage] at hnext
    cases hnext

/-- An end that the source reports is the last that is asked of it. -/
theorem next_end (h : Follows source items stage s) {s' : Sequence α}
    (hnext : s.next = (none, s')) : Follows source items (stage.andThen .ended) s' := by
  by_cases hstage : stage = .running
  · subst hstage
    have hanswer : source.answer items.length = none := by rw [← h.next_running, hnext]
    have hs : s' = ⟨none, items.length, 1⟩ := by
      rw [h.running rfl] at hnext
      unfold Sequence.next at hnext
      simp only [hanswer, Prod.mk.injEq, true_and] at hnext
      exact hnext.symm
    exact ⟨h.given, fun he => (by cases he), fun _ => by simp [hs], fun _ => hanswer⟩
  · rw [h.next_finished hstage] at hnext
    cases hnext
    rwa [Stage.andThen_of_ne hstage]

theorem take (h : Follows source items stage s) (n : Nat) :
    Follows source (items ++ (s.take n).1)
      (stage.andThen (if (s.take n).1.length < n then .ended else .running)) (s.take n).2 := by
  induction n generalizing items stage s with
  | zero => simpa [Sequence.take] using h
  | succ n ih =>
    unfold Sequence.take
    split
    · next s' hnext => simpa using h.next_end hnext
    · next item s' hnext =>
      obtain ⟨rfl, hitem⟩ := h.next_item hnext
      simpa [Stage.andThen] using ih hitem

/-- What is collected goes up to the first end. The induction is on the requests until then. -/
theorem rest (h : Follows source items stage s) {found : List α} {s' : Sequence α}
    (hrest : s.rest = some (found, s')) :
    Follows source (items ++ found) (stage.andThen .ended) s' := by
  have hall := Sequence.rest.partial_correctness
    (fun s result => ∀ items stage, Follows source items stage s →
      Follows source (items ++ result.1) (stage.andThen .ended) result.2)
    (fun rest ih s result hresult items stage h => ?_) s (found, s') hrest
  · exact hall items stage h
  · split at hresult
    · next s' hnext =>
      cases hresult
      simpa using h.next_end hnext
    · next item s' hnext =>
      obtain ⟨⟨found, s''⟩, hfound, hresult⟩ := Option.bind_eq_some_iff.mp hresult
      cases hresult
      obtain ⟨rfl, hitem⟩ := h.next_item hnext
      simpa using ih s' (found, s'') hfound _ _ hitem

theorem release (h : Follows source items stage s) :
    Follows source items (stage.andThen .left) s.release := by
  by_cases hstage : stage = .running
  · subst hstage
    rw [h.running rfl]
    exact ⟨h.given, fun he => (by cases he), fun _ => ⟨rfl, rfl⟩, fun he => by cases he⟩
  · have hrelease : s.release = s := by
      unfold Sequence.release
      rw [(h.finished hstage).1]
    rwa [Stage.andThen_of_ne hstage, hrelease]

/-- One call. -/
theorem perform (h : Follows source items stage s) {call : Call} {reply : Reply α} {s' : Sequence α}
    (hperform : call.perform s = some (reply, s')) :
    Follows source (items ++ reply.handed) (stage.andThen (Exchange.stage ⟨call, reply⟩)) s' := by
  cases call with
  | next =>
    cases hperform
    cases hnext : s.next with
    | mk item s' =>
      cases item with
      | none => simpa [Reply.handed, Exchange.stage] using h.next_end hnext
      | some item =>
        obtain ⟨rfl, hitem⟩ := h.next_item hnext
        exact hitem
  | collect =>
    obtain ⟨⟨found, s''⟩, hrest, hreply⟩ := Option.map_eq_some_iff.mp hperform
    cases hreply
    exact h.rest hrest
  | take n =>
    cases hperform
    exact h.take n
  | sizeHint =>
    cases hperform
    simpa [Reply.handed, Exchange.stage] using h
  | release | drop =>
    cases hperform
    simpa [Reply.handed, Exchange.stage] using h.release

theorem run (h : Follows source items stage s) {calls : List Call} {history : List (Exchange α)}
    {s' : Sequence α} (hrun : run calls s = some (history, s')) :
    Follows source (items ++ handedOut history)
      (history.foldl (fun stage e => stage.andThen e.stage) stage) s' := by
  induction calls generalizing items stage s history with
  | nil =>
    cases hrun
    simpa [handedOut] using h
  | cons call calls ih =>
    obtain ⟨⟨reply, s₁⟩, hperform, hrun⟩ := Option.bind_eq_some_iff.mp hrun
    obtain ⟨⟨rest, s₂⟩, hrest, hrun⟩ := Option.bind_eq_some_iff.mp hrun
    cases hrun
    simpa [handedOut] using ih (h.perform hperform) hrest

/-- A source that comes to an end from where it is has all its items collected. -/
theorem exists_rest (h : Follows source items stage s) {n : Nat} (hend : source.answer n = none) :
    ∃ result, s.rest = some result := by
  by_cases hstage : stage = .running
  · subst hstage
    have hle : items.length ≤ n := by
      refine Nat.le_of_not_lt fun hlt => ?_
      have hgiven := h.given n items[n] (List.getElem?_eq_getElem (by omega))
      rw [hend] at hgiven
      cases hgiven
    -- by the number of answers up to the end
    obtain ⟨m, rfl⟩ := Nat.exists_eq_add_of_le hle
    induction m generalizing items s with
    | zero =>
      have hnone : s.next.1 = none := h.next_running.trans hend
      cases hnext : s.next with
      | mk item s' =>
        rw [hnext] at hnone
        cases hnone
        exact ⟨_, by rw [Sequence.rest, hnext]⟩
    | succ m ih =>
      cases hnext : s.next with
      | mk item s' =>
        cases item with
        | none => exact ⟨_, by rw [Sequence.rest, hnext]⟩
        | some item =>
          obtain ⟨-, hitem⟩ := h.next_item hnext
          have hlength : (items ++ [item]).length + m = items.length + (m + 1) := by simp; omega
          obtain ⟨⟨found, s''⟩, hrest⟩ := ih hitem (by rwa [hlength]) (by omega)
          exact ⟨(item :: found, s''), by rw [Sequence.rest, hnext]; simp [hrest]⟩
  · exact ⟨([], s), by rw [Sequence.rest, h.next_finished hstage]⟩

theorem exists_run (h : Follows source items stage s) {calls : List Call}
    (hcalls : (∃ n, source.answer n = none) ∨ .collect ∉ calls) :
    ∃ result, Sequence.run calls s = some result := by
  induction calls generalizing items stage s with
  | nil => exact ⟨_, rfl⟩
  | cons call calls ih =>
    have hperform : ∃ result, call.perform s = some result := by
      cases call with
      | collect =>
        obtain ⟨n, hend⟩ := hcalls.resolve_right (by simp)
        obtain ⟨result, hrest⟩ := h.exists_rest hend
        exact ⟨_, by rw [Call.perform, hrest]; rfl⟩
      | next | take n | sizeHint | release | drop => exact ⟨_, rfl⟩
    obtain ⟨⟨reply, s'⟩, hperform⟩ := hperform
    have hrest : (∃ n, source.answer n = none) ∨ .collect ∉ calls :=
      hcalls.imp_right fun hnot hmem => hnot (List.mem_cons_of_mem _ hmem)
    obtain ⟨⟨history, s''⟩, hrun⟩ := ih (h.perform hperform) hrest
    exact ⟨(⟨call, reply⟩ :: history, s''), by simp [Sequence.run, hperform, hrun]⟩

end Follows

/-- A sequence over any source, in a series of calls that returns. It does return if the source
reports an end at some time or if nothing is collected. The items that it hands out are the first
answers of the source, and if the source has reported an end they are all that came before it. As
long as no end was reported and the sequence was not let go, it is not exhausted, and answers as the
source does; from then on it has released the source once, is exhausted and yields nothing. -/
theorem run_fused (source : ItemSource α) (calls : List Call) :
    ((∃ n, source.answer n = none) ∨ .collect ∉ calls → ∃ result, run calls (ofSource source) =
      some result) ∧
    ∀ history s, run calls (ofSource source) = some (history, s) →
      (∀ k item, (handedOut history)[k]? = some item → source.answer k = some item) ∧
      (stageOf history = .ended → source.answer (handedOut history).length = none) ∧
      (stageOf history = .running → s.isExhausted = false ∧ s.releases = 0 ∧
        s.next.1 = source.answer (handedOut history).length ∧
        s.sizeHint = source.promise (handedOut history).length) ∧
      (stageOf history ≠ .running → s.isExhausted = true ∧ s.releases = 1 ∧ s.next = (none, s) ∧
        s.sizeHint = (0, some 0)) := by
  have hstart : Follows source [] .running (ofSource source) := .ofSource source
  refine ⟨fun hcalls => hstart.exists_run hcalls, fun history s hrun => ?_⟩
  have h : Follows source (handedOut history) (stageOf history) s := by
    simpa [stageOf] using hstart.run hrun
  refine ⟨h.given, h.ended, fun hstage => ?_, fun hstage => ?_⟩
  · rw [hstage] at h
    refine ⟨?_, ?_, h.next_running, ?_⟩
    all_goals rw [h.running rfl]
    · rfl
    · rfl
  · obtain ⟨hsource, hreleases⟩ := h.finished hstage
    exact ⟨by simp [isExhausted, hsource], hreleases, h.next_finished hstage,
      by simp [sizeHint, hsource]⟩

/-- The source would go on after its end. -/
example : (run [.next, .next, .next, .drop] (ofSource (.ofList [some 1, none, some 2]))).map
    (fun (history, s) => (handedOut history, stageOf history, s.releases)) =
      some ([1], .ended, 1) := by decide

end Sequence

end InterfaceCatalog
