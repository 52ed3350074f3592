namespace InterfaceCatalog

/-- A slot of an arena with the number of removals from it at the time of an insertion, so that
the handle of a removed item does not find the next item of its slot. -/
structure Handle where
  index : Nat
  generation : UInt32
  deriving DecidableEq

def Handle.compare (h k : Handle) : Ordering :=
  (Ord.compare h.index k.index).then (Ord.compare h.generation.toNat k.generation.toNat)

def Handle.text (h : Handle) : String :=
  s!"{h.index}#{h.generation}"

/-- A place for an item, and how often an item was removed from it, up to the width of the count. -/
structure Slot (α : Type) where
  generation : UInt32
  item : Option α
  deriving DecidableEq

/-- The slots, and the vacant ones among them with the next to be used first. The
items are counted. -/
structure Arena (α : Type) where
  slots : Array (Slot α)
  vacant : List Nat
  size : Nat
  deriving DecidableEq

namespace Arena

variable {α : Type}

def empty : Arena α := ⟨#[], [], 0⟩

def get? (a : Arena α) (h : Handle) : Option α :=
  match a.slots[h.index]? with
  | some slot => if slot.generation = h.generation then slot.item else none
  | none => none

def contains (a : Arena α) (h : Handle) : Bool :=
  (a.get? h).isSome

def next (a : Arena α) : Handle :=
  match a.vacant with
  | [] => ⟨a.slots.size, 0⟩
  | i :: _ =>
    match a.slots[i]? with
    | some slot => ⟨i, slot.generation⟩
    | none => ⟨i, 0⟩

/-- Puts an item into the slot that was freed last, or into a new one. -/
def insert (a : Arena α) (item : α) : Arena α :=
  match a.vacant with
  | [] => ⟨a.slots.push ⟨0, some item⟩, [], a.size + 1⟩
  | i :: rest => ⟨a.slots.modify i fun slot => { slot with item := some item }, rest, a.size + 1⟩

/-- The handle of an item that is put in: its slot, with the generation that the slot has then. -/
def issued (a : Arena α) (item : α) : Handle :=
  match a.vacant with
  | [] => ⟨a.slots.size, 0⟩
  | i :: _ =>
    match (a.insert item).slots[i]? with
    | some slot => ⟨i, slot.generation⟩
    | none => ⟨i, 0⟩

def modify (a : Arena α) (h : Handle) (f : α → α) : Arena α :=
  if a.contains h then
    { a with slots := a.slots.modify h.index fun slot => { slot with item := slot.item.map f } }
  else a

/-- Frees the slot of a live handle and advances its generation. -/
def remove (a : Arena α) (h : Handle) : Arena α :=
  if a.contains h then
    { slots := a.slots.modify h.index fun slot => ⟨slot.generation + 1, none⟩
      vacant := h.index :: a.vacant
      size := a.size - 1 }
  else a

/-- The live items with their handles, in the order of the slots. -/
def entries (a : Arena α) : List (Handle × α) :=
  (a.slots.toList.zipIdx).filterMap fun (slot, i) => slot.item.map fun item =>
    (⟨i, slot.generation⟩, item)

end Arena

end InterfaceCatalog
