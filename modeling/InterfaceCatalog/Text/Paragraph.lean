import InterfaceCatalog.Text.Character

namespace InterfaceCatalog

def trimBlanks (cs : List Char) : List Char :=
  ((cs.dropWhile isBlank).reverse.dropWhile isBlank).reverse

/-- The lines of a text. A line ends with a line feed, and the text after the last one is a line of
its own unless it is empty. -/
def linesOf : List Char → List (List Char)
  | [] => []
  | c :: cs =>
    if c = '\n' then [] :: linesOf cs
    else
      match linesOf cs with
      | [] => [[c]]
      | line :: rest => (c :: line) :: rest

def rowsOf : List (List Char) → List (List (List Char))
  | [] => []
  | line :: rest =>
    if line.isEmpty then rowsOf rest
    else
      match rest with
      | [] => [[line]]
      | next :: _ =>
        if next.isEmpty then [line] :: rowsOf rest
        else
          match rowsOf rest with
          | [] => [[line]]
          | row :: rows => (line :: row) :: rows

def paragraphs (description : String) : List String :=
  (rowsOf ((linesOf description.toList).map trimBlanks)).map fun row =>
    "\n".intercalate (row.map String.ofList)

end InterfaceCatalog
