import InterfaceCatalog.Settings.Basic

namespace InterfaceCatalog

/-- A state with the number of its holders and the number of times it was shut down. -/
structure SessionState where
  settings : Settings
  holders : Nat
  shutDowns : Nat

/-- All states that were ever created, the number of those that live, and who holds which of
them. -/
structure Sessions where
  states : List SessionState := []
  active : Nat := 0
  holders : List (String × Nat) := []

namespace Sessions

def heldBy? (s : Sessions) (name : String) : Option Nat := s.holders.lookup name

def settings? (s : Sessions) (name : String) : Option Settings := do
  let state ← s.states[← s.heldBy? name]?
  return state.settings

/-- Lets one holder of a state go. The last one shuts the state down. -/
def leave (s : Sessions) (i : Nat) : Sessions :=
  match s.states[i]? with
  | none => s
  | some state =>
    let holders := state.holders - 1
    if holders = 0 then
      { s with
        states := s.states.set i { state with holders, shutDowns := state.shutDowns + 1 }
        active := s.active - 1 }
    else { s with states := s.states.set i { state with holders } }

def join (s : Sessions) (i : Nat) : Sessions :=
  { s with states := s.states.modify i fun state => { state with holders := state.holders + 1 } }

def drop (s : Sessions) (name : String) : Sessions :=
  match s.heldBy? name with
  | none => s
  | some i =>
    let rest : Sessions := { s with holders := s.holders.filter (·.1 != name) }
    rest.leave i

/-- Lets a name hold a state that already counts it. What it held before goes after that. -/
def bind (s : Sessions) (name : String) (i : Nat) : Sessions :=
  let s := s.drop name
  { s with holders := s.holders ++ [(name, i)] }

def create (s : Sessions) (name : String) (settings : Settings) : Sessions :=
  let state : SessionState := { settings, holders := 1, shutDowns := 0 }
  let opened : Sessions := { s with states := s.states ++ [state], active := s.active + 1 }
  opened.bind name s.states.length

/-- Lets a name hold what another one holds, as a session or as a database. -/
def share? (s : Sessions) (name other : String) : Option Sessions :=
  (s.heldBy? other).map fun i => (s.join i).bind name i

def same? (s : Sessions) (name other : String) : Option Bool := do
  return (← s.heldBy? name) = (← s.heldBy? other)

end Sessions

end InterfaceCatalog
