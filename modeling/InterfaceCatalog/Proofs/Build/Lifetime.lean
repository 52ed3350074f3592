import InterfaceCatalog.Proofs.Arena.History
import InterfaceCatalog.Proofs.Build.Links

namespace InterfaceCatalog

/-- What happened to the handles of each table, newest first. -/
abbrev Log := Table → List Arena.Event

namespace Log

def Issued (log : Log) {t : Table} (id : Id t) : Prop :=
  .issued id.handle ∈ log t

def Freed (log : Log) {t : Table} (id : Id t) : Prop :=
  .freed id.handle ∈ log t

/-- No slot of any table was freed so often that its generation started again. -/
def Bounded (log : Log) : Prop :=
  ∀ t, Arena.Bounded (log t)

/-- One log after another. -/
def after (later earlier : Log) : Log :=
  fun t => later t ++ earlier t

def empty : Log :=
  fun _ => []

@[simp] theorem after_empty (log : Log) : log.after empty = log :=
  funext fun _ => List.append_nil _

theorem Bounded.earlier {later earlier : Log} (h : (later.after earlier).Bounded) :
    earlier.Bounded :=
  fun t => (h t).of_append

end Log

/-- The second catalog comes from the first one by the events of a log. -/
def Catalog.History (c : Catalog) (log : Log) (c' : Catalog) : Prop :=
  ∀ t, (c.store.arena t).History (log t) (c'.store.arena t)

namespace Catalog

variable {c c' : Catalog}

theorem History.trans {c'' : Catalog} {log log' : Log} (h : c.History log c')
    (h' : c'.History log' c'') : c.History (log'.after log) c'' :=
  fun t => (h t).trans (h' t)

theorem History.of_store_eq (h : c'.store = c.store) : c.History .empty c' :=
  fun _ => h ▸ .refl _

end Catalog

/-- Moves of the machine with their log. -/
inductive Chronicle : Progress → Log → Progress → Prop
  | refl (p : Progress) : Chronicle p .empty p
  | move {p q r : Progress} {log new : Log} (h : Chronicle p log q) (hm : Move [] q r)
      (hn : q.catalog.History new r.catalog) : Chronicle p (new.after log) r

namespace Chronicle

variable {p q r : Progress} {log log' : Log}

theorem moves (h : Chronicle p log q) : Moves [] p q := by
  induction h with
  | refl => exact .refl
  | move _ hm _ ih => exact ih.tail hm

theorem history (h : Chronicle p log q) : p.catalog.History log q.catalog := by
  induction h with
  | refl => exact .of_store_eq rfl
  | move _ _ hn ih => exact ih.trans hn

theorem trans (h : Chronicle p log q) (h' : Chronicle q log' r) :
    Chronicle p (log'.after log) r := by
  induction h' with
  | refl => exact h
  | @move _ _ log' new _ hm hn ih =>
    have hassoc : (new.after log').after log = new.after (log'.after log) :=
      funext fun t => List.append_assoc _ _ _
    rw [hassoc]
    exact ih.move hm hn

end Chronicle

section

variable {p q : Progress} {log log' : Log}

/-- What a record refers to after a move, it referred to before, or it is a handle that was live. -/
theorem Move.references (h : Move [] p q) (hp : p.Sound []) {t : Table} {id : Id t} {r : Record t}
    (hr : q.catalog.get? id = some r) {ref : Reference} (href : ref ∈ references t r) :
    (∃ r', p.catalog.get? id = some r' ∧ ref ∈ InterfaceCatalog.references t r') ∨
      p.catalog.Live ref.id := by
  cases h with
  | step h =>
    cases h with
    | @insert c fr rest u record backed =>
      have wf := Accounted.wellFormed hp
      by_cases hid : Change.inserted t id = .inserted u (c.next u)
      · cases hid
        rw [Catalog.get?_insert_next wf] at hr
        cases hr
        exact .inr (Accounted.live_of_backed (o := fr.owner) hp (backed ref href))
      · rw [Catalog.get?_insert_of_ne wf record hid] at hr
        exact .inl ⟨r, hr, href⟩
    | @modify c fr rest u other record f own found backed =>
      by_cases hid : Change.inserted t id = .inserted u other
      · cases hid
        rw [Catalog.get?_modify_self, found] at hr
        cases hr
        rcases backed ref href with hold | hnew
        · exact .inl ⟨record, found, hold⟩
        · exact .inr (Accounted.live_of_backed (o := fr.owner) hp hnew)
      · rw [Catalog.get?_modify_of_ne c f hid] at hr
        exact .inl ⟨r, hr, href⟩
    | register free own unlisted => exact .inl ⟨r, hr, href⟩
    | begin source imports unparsed idle => exact .inl ⟨r, hr, href⟩
    | finish complete => exact .inl ⟨r, hr, href⟩
  | @abandon c fr rest =>
    rw [Catalog.get?_rollback] at hr
    split at hr
    · cases hr
    · exact .inl ⟨r, hr, href⟩

/-- The records of parsed files are left as they are. -/
theorem Moves.get?_of_built (h : Moves [] p q) (hp : p.Sound []) {b : Build}
    (hb : b ∈ p.catalog.builds) :
    b ∈ q.catalog.builds ∧ ∀ {t : Table} (id : Id t), Change.inserted t id ∈ b.journal →
      q.catalog.get? id = p.catalog.get? id := by
  induction h with
  | refl => exact ⟨hb, fun _ _ => rfl⟩
  | tail hms hm ih =>
    obtain ⟨hmem, hget⟩ := ih
    refine ⟨hm.builds_subset hmem, fun id hid => ?_⟩
    exact (hm.get?_of_owned (Moves.sound hms hp) (owner_mem_owners hmem _) hid).trans (hget id hid)

theorem sound_empty : Progress.Sound [] ⟨{}, []⟩ := Accounted.empty

theorem Chronicle.records (h : Chronicle ⟨{}, []⟩ log q) (hb : log.Bounded) (t : Table) :
    Arena.Records (log t) (q.catalog.store.arena t) := by
  have hempty : ({} : Catalog).store.arena t = .empty := by cases t <;> rfl
  have hhistory := h.history t
  rw [hempty] at hhistory
  exact hhistory.records (hb t)

/-- A handle finds a record exactly if it was issued and not freed since. -/
theorem Chronicle.live_iff (h : Chronicle ⟨{}, []⟩ log q) (hb : log.Bounded) {t : Table}
    (id : Id t) : q.catalog.Live id ↔ log.Issued id ∧ ¬ log.Freed id :=
  (h.records hb t).contains_iff id.handle

/-- A handle that was issued is not issued again; later on it finds a record exactly if it did
before and was not freed since. -/
theorem Chronicle.faithful (h : Chronicle ⟨{}, []⟩ log p) (h' : Chronicle p log' q)
    (hb : (log'.after log).Bounded) {t : Table} {id : Id t} (hid : log.Issued id) :
    ¬ log'.Issued id ∧ (q.catalog.Live id ↔ p.catalog.Live id ∧ ¬ log'.Freed id) := by
  have htrans := h.trans h'
  have hnodup := (htrans.records hb t).nodup
  refine ⟨fun hagain => (List.nodup_append.mp hnodup).2.2 _ hagain _ hid rfl, ?_⟩
  rw [htrans.live_iff hb, h.live_iff hb.earlier]
  simp only [Log.Issued, Log.Freed, Log.after, List.mem_append] at hid ⊢
  tauto

end

end InterfaceCatalog
