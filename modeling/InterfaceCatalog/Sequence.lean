namespace InterfaceCatalog

/-- What a source answers to a request, an item or an end, and the least and the greatest
number of items that it promises before, if there is a greatest one. Both go by the number of
requests made so far. -/
structure ItemSource (α : Type) where
  answer : Nat → Option α
  promise : Nat → Nat × Option Nat

/-- A source with one answer for each of the first requests. To all others it reports an end. -/
def ItemSource.ofList {α : Type} (answers : List (Option α)) : ItemSource α where
  answer n := answers[n]?.join
  promise n := (answers.length - n, some (answers.length - n))

/-- The items of a source that is released at its first end, with the number of requests that
it got and how often it was released. A released sequence yields nothing. -/
structure Sequence (α : Type) where
  source : Option (ItemSource α)
  requests : Nat
  releases : Nat

namespace Sequence

variable {α : Type}

def ofSource (source : ItemSource α) : Sequence α := ⟨some source, 0, 0⟩

def empty : Sequence α := ⟨none, 0, 0⟩

def isExhausted (s : Sequence α) : Bool := s.source.isNone

def release (s : Sequence α) : Sequence α :=
  match s.source with
  | none => s
  | some _ => { s with source := none, releases := s.releases + 1 }

def next (s : Sequence α) : Option α × Sequence α :=
  match s.source with
  | none => (none, s)
  | some source =>
    match source.answer s.requests with
    | none => (none, s.release)
    | some item => (some item, { s with requests := s.requests + 1 })

def take : (n : Nat) → Sequence α → List α × Sequence α
  | 0, s => ([], s)
  | n + 1, s =>
    match s.next with
    | (none, s) => ([], s)
    | (some item, s) =>
      let (items, s) := take n s
      (item :: items, s)

/-- The least and the greatest number of items that the source promises. -/
def sizeHint (s : Sequence α) : Nat × Option Nat :=
  match s.source with
  | none => (0, some 0)
  | some source => source.promise s.requests

/-- All items up to the end. A source that reports none is asked forever. -/
def rest (s : Sequence α) : Option (List α × Sequence α) :=
  match s.next with
  | (none, s) => some ([], s)
  | (some item, s) => do
    let (items, s) ← s |>.rest
    return (item :: items, s)
partial_fixpoint

end Sequence

end InterfaceCatalog
