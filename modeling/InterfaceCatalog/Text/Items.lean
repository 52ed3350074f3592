namespace InterfaceCatalog

/-- Items up to a closing character, with commas between them and perhaps one after the last. Around
them may stand what `skip` passes over. A text of `fuel` characters has fewer items. -/
def readItems? (skip : List Char → Option (List Char))
    (item : List Char → Option (α × List Char)) (closing : Char) :
    (fuel : Nat) → List Char → Option (List α × List Char)
  | 0, _ => none
  | fuel + 1, cs => do
    match ← skip cs with
    | [] => none
    | c :: cs =>
      if c = closing then return ([], cs)
      else
        let (a, cs) ← item (c :: cs)
        match ← skip cs with
        | ',' :: cs =>
          let (as, cs) ← readItems? skip item closing fuel cs
          return (a :: as, cs)
        | c :: cs => if c = closing then return ([a], cs) else none
        | [] => none

/-- One or more items up to a closing character, with commas between them and none after
the last. Before each of them may stand what `skip` passes over. A text of `fuel`
characters has fewer items. -/
def readTail? (skip : List Char → List Char) (item : List Char → Option (α × List Char))
    (closing : Char) : (fuel : Nat) → List Char → Option (List α × List Char)
  | 0, _ => none
  | fuel + 1, cs => do
    let (a, cs) ← item (skip cs)
    match skip cs with
    | ',' :: cs =>
      let (as, cs) ← readTail? skip item closing fuel cs
      return (a :: as, cs)
    | c :: cs => if c = closing then return ([a], cs) else none
    | [] => none

def readRow? (skip : List Char → List Char) (item : List Char → Option (α × List Char))
    (closing : Char) (cs : List Char) : Option (List α × List Char) :=
  match skip cs with
  | [] => none
  | c :: cs =>
    if c = closing then some ([], cs)
    else readTail? skip item closing (cs.length + 2) (c :: cs)

end InterfaceCatalog
