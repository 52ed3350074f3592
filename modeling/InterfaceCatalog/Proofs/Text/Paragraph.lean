import Mathlib.Data.List.DropRight
import InterfaceCatalog.Proofs.Text.Qualified
import InterfaceCatalog.Text.Paragraph

namespace InterfaceCatalog

theorem trimBlanks_subset (cs : List Char) : trimBlanks cs ⊆ cs := by
  intro c hc
  have hfront : c ∈ cs.dropWhile isBlank := (List.rdropWhile_prefix _ _).subset hc
  exact (List.dropWhile_suffix _).subset hfront

theorem trimBlanks_trimBlanks (cs : List Char) : trimBlanks (trimBlanks cs) = trimBlanks cs := by
  let front := cs.dropWhile isBlank
  have hkept : front.rdropWhile isBlank <+: front := List.rdropWhile_prefix _ _
  have hfront : (front.rdropWhile isBlank).dropWhile isBlank = front.rdropWhile isBlank := by
    rw [List.dropWhile_eq_self_iff]
    intro hlength
    have hfirst :=
      List.dropWhile_get_zero_not isBlank cs (Nat.lt_of_lt_of_le hlength hkept.length_le)
    rwa [hkept.getElem hlength]
  calc trimBlanks (trimBlanks cs)
      = ((front.rdropWhile isBlank).dropWhile isBlank).rdropWhile isBlank := rfl
    _ = (front.rdropWhile isBlank).rdropWhile isBlank := by rw [hfront]
    _ = trimBlanks cs := List.rdropWhile_idempotent _ _

theorem newline_not_mem_linesOf {cs line : List Char} (h : line ∈ linesOf cs) : '\n' ∉ line := by
  fun_induction linesOf cs generalizing line with
  | case1 => simp at h
  | case2 cs ih =>
    rcases List.mem_cons.mp h with rfl | h
    · simp
    · exact ih h
  | case3 c cs hc hcs ih =>
    rw [List.mem_singleton.mp h]
    simpa using Ne.symm hc
  | case4 c cs hc first rest hcs ih =>
    rcases List.mem_cons.mp h with rfl | h
    · have hfirst : '\n' ∉ first := ih (by simp [hcs])
      simpa [hfirst] using Ne.symm hc
    · exact ih (by simp [hcs, h])

theorem linesOf_append_newline {line : List Char} (hn : '\n' ∉ line) (cs : List Char) :
    linesOf (line ++ '\n' :: cs) = line :: linesOf cs := by
  induction line with
  | nil => simp [linesOf]
  | cons c line ih =>
    rw [List.mem_cons, not_or] at hn
    rw [List.cons_append, linesOf, if_neg (Ne.symm hn.1), ih hn.2]

theorem linesOf_single {line : List Char} (hn : '\n' ∉ line) (hne : line ≠ []) :
    linesOf line = [line] := by
  induction line with
  | nil => exact absurd rfl hne
  | cons c line ih =>
    rw [List.mem_cons, not_or] at hn
    rw [linesOf, if_neg (Ne.symm hn.1)]
    cases line with
    | nil => rfl
    | cons d line => rw [ih hn.2 (by simp)]

/-- Lines are read back from the text that they are joined to, as a text does not end
with an empty line. -/
theorem linesOf_intercalate {lines : List (List Char)} (hn : ∀ line ∈ lines, '\n' ∉ line)
    (hlast : lines.getLast? ≠ some []) : linesOf (['\n'].intercalate lines) = lines := by
  induction lines with
  | nil => rfl
  | cons line lines ih =>
    have hline := hn line List.mem_cons_self
    cases lines with
    | nil =>
      have hne : line ≠ [] := by simpa using hlast
      simpa using linesOf_single hline hne
    | cons next lines =>
      have hrest := ih (fun l hl => hn l (List.mem_cons_of_mem _ hl)) (by simpa using hlast)
      rw [List.intercalate_cons_cons, List.append_assoc, List.singleton_append,
        linesOf_append_newline hline, hrest]

/-- The lines of a text without the blanks around them. A line of blanks only is empty then. -/
def trimmedLines (text : String) : List (List Char) :=
  (linesOf text.toList).map trimBlanks

/-- A line without blanks around it. -/
def IsTrimmed (line : List Char) : Prop :=
  trimBlanks line = line ∧ '\n' ∉ line

theorem isTrimmed_of_mem {text : String} {line : List Char} (h : line ∈ trimmedLines text) :
    IsTrimmed line := by
  obtain ⟨whole, hwhole, rfl⟩ := List.mem_map.mp h
  exact ⟨trimBlanks_trimBlanks whole, fun hn =>
    newline_not_mem_linesOf hwhole (trimBlanks_subset whole hn)⟩

/-- How lines are parted into rows. A line goes with the next one unless one of them is blank. -/
inductive Parted : List (List Char) → List (List (List Char)) → Prop
  | nil : Parted [] []
  | blank {lines : List (List Char)} {rows : List (List (List Char))} (h : Parted lines rows) :
      Parted ([] :: lines) rows
  | last {line : List Char} {lines : List (List Char)} {rows : List (List (List Char))}
      (hne : line ≠ []) (hlast : ∀ next ∈ lines.head?, next = []) (h : Parted lines rows) :
      Parted (line :: lines) ([line] :: rows)
  | join {line next : List Char} {lines row : List (List Char)} {rows : List (List (List Char))}
      (hne : line ≠ []) (hnext : next ≠ []) (h : Parted (next :: lines) ((next :: row) :: rows)) :
      Parted (line :: next :: lines) ((line :: next :: row) :: rows)

theorem exists_parted (lines : List (List Char)) : ∃ rows, Parted lines rows := by
  induction lines with
  | nil => exact ⟨_, .nil⟩
  | cons line lines ih =>
    obtain ⟨rows, h⟩ := ih
    by_cases hne : line = []
    · subst hne
      exact ⟨rows, .blank h⟩
    by_cases hlast : ∀ next ∈ lines.head?, next = []
    · exact ⟨_, .last hne hlast h⟩
    · push Not at hlast
      obtain ⟨next, hhead, hnext⟩ := hlast
      obtain ⟨rest, rfl⟩ := List.head?_eq_some_iff.mp hhead
      cases h with
      | blank h => exact absurd rfl hnext
      | last hne' hlast h => exact ⟨_, .join hne hnext (.last hne' hlast h)⟩
      | join hne' hnext' h => exact ⟨_, .join hne hnext (.join hne' hnext' h)⟩

theorem Parted.rowsOf_eq {lines : List (List Char)} {rows : List (List (List Char))}
    (h : Parted lines rows) : rowsOf lines = rows := by
  induction h with
  | nil => rfl
  | blank h ih => simpa [rowsOf] using ih
  | @last line lines rows hne hlast h ih =>
    cases lines with
    | nil =>
      cases ih
      simp [rowsOf, hne]
    | cons next rest =>
      have hnext : next = [] := hlast next rfl
      simp [rowsOf, hne, hnext, ← ih]
  | join hne hnext h ih =>
    rw [rowsOf, ih]
    simp [hne, hnext]

theorem parted_rowsOf (lines : List (List Char)) : Parted lines (rowsOf lines) := by
  obtain ⟨rows, h⟩ := exists_parted lines
  rwa [h.rowsOf_eq]

namespace Parted

variable {lines : List (List Char)} {rows : List (List (List Char))}

theorem flatten (h : Parted lines rows) : rows.flatten = lines.filter (· ≠ []) := by
  induction h with
  | nil => rfl
  | blank h ih => simpa using ih
  | last hne hlast h ih => simpa [hne] using ih
  | join hne hnext h ih => simpa [hne, hnext] using ih

theorem nil_not_mem (h : Parted lines rows) : [] ∉ rows := by
  induction h with
  | nil => simp
  | blank h ih => exact ih
  | last hne hlast h ih => simpa using ih
  | join hne hnext h ih => simpa using ih

theorem mem_of_mem (h : Parted lines rows) {row : List (List Char)} (hrow : row ∈ rows)
    {line : List Char} (hline : line ∈ row) : line ∈ lines ∧ line ≠ [] := by
  have hall : line ∈ rows.flatten := List.mem_flatten.mpr ⟨row, hrow, hline⟩
  rw [h.flatten] at hall
  simpa using hall

/-- A row goes up to the next blank line. -/
theorem row_append (h : Parted lines rows) (hblank : ∀ next ∈ lines.head?, next = [])
    {row : List (List Char)} (hne : row ≠ []) (hrow : [] ∉ row) :
    Parted (row ++ lines) (row :: rows) := by
  induction row with
  | nil => exact absurd rfl hne
  | cons line row ih =>
    rw [List.mem_cons, not_or] at hrow
    have hline : line ≠ [] := Ne.symm hrow.1
    cases row with
    | nil => exact .last hline hblank h
    | cons next row =>
      have hnext : next ≠ [] := fun hn => hrow.2 (by simp [hn])
      exact .join hline hnext (ih (by simp) hrow.2)

/-- Rows are read back from their lines with a blank line between any two of them. -/
theorem intercalate (hne : [] ∉ rows) (hrows : ∀ row ∈ rows, [] ∉ row) :
    Parted ([[]].intercalate rows) rows := by
  induction rows with
  | nil => exact .nil
  | cons row rows ih =>
    rw [List.mem_cons, not_or] at hne
    rw [List.forall_mem_cons] at hrows
    cases rows with
    | nil => simpa using Parted.nil.row_append (by simp) (Ne.symm hne.1) hrows.1
    | cons next rows =>
      rw [List.intercalate_cons_cons, List.append_assoc, List.singleton_append]
      exact (Parted.blank (ih hne.2 hrows.2)).row_append (by simp) (Ne.symm hne.1) hrows.1

end Parted

/-- The number of the row in which an item of all rows stands. -/
def rowAt {α : Type} : List (List α) → Nat → Nat
  | [], _ => 0
  | row :: rows, k => if k < row.length then 0 else rowAt rows (k - row.length) + 1

theorem exists_rowAt {α : Type} {rows : List (List α)} {k : Nat} {item : α}
    (h : rows.flatten[k]? = some item) : ∃ row, rows[rowAt rows k]? = some row ∧ item ∈ row := by
  induction rows generalizing k with
  | nil => simp at h
  | cons row rows ih =>
    rw [List.flatten_cons] at h
    unfold rowAt
    split
    · next hk =>
      rw [List.getElem?_append_left hk] at h
      exact ⟨row, rfl, List.mem_of_getElem? h⟩
    · next hk =>
      rw [List.getElem?_append_right (by omega)] at h
      simpa using ih h

/-- The number of lines in front of a line that are not blank. -/
def rank (lines : List (List Char)) (i : Nat) : Nat :=
  (lines.take i).countP (· ≠ [])

/-- A line of the text that is not blank. -/
def IsWritten (lines : List (List Char)) (i : Nat) : Prop :=
  ∃ line, lines[i]? = some line ∧ line ≠ []

def WrittenFromTo (lines : List (List Char)) (i k : Nat) : Prop :=
  ∀ m, i ≤ m → m ≤ k → IsWritten lines m

section

variable {line : List Char} {lines : List (List Char)} {i k : Nat}

@[simp] theorem rank_zero : rank lines 0 = 0 := by
  simp [rank]

theorem rank_succ_of_blank : rank ([] :: lines) (i + 1) = rank lines i := by
  simp [rank]

theorem rank_succ (hne : line ≠ []) : rank (line :: lines) (i + 1) = rank lines i + 1 := by
  simp [rank, hne]

@[simp] theorem isWritten_zero : IsWritten (line :: lines) 0 ↔ line ≠ [] := by
  simp [IsWritten]

@[simp] theorem isWritten_succ : IsWritten (line :: lines) (i + 1) ↔ IsWritten lines i := by
  simp [IsWritten]

theorem writtenFromTo_self (h : IsWritten lines i) : WrittenFromTo lines i i := by
  intro m him hmi
  rwa [Nat.le_antisymm hmi him]

theorem writtenFromTo_succ :
    WrittenFromTo (line :: lines) (i + 1) (k + 1) ↔ WrittenFromTo lines i k := by
  constructor
  · intro h m him hmk
    exact isWritten_succ.mp (h (m + 1) (by omega) (by omega))
  · intro h m him hmk
    obtain ⟨m, rfl⟩ : ∃ n, m = n + 1 := ⟨m - 1, by omega⟩
    exact isWritten_succ.mpr (h m (by omega) (by omega))

theorem writtenFromTo_zero (hne : line ≠ []) :
    WrittenFromTo (line :: lines) 0 (k + 1) ↔ WrittenFromTo lines 0 k := by
  constructor
  · intro h m him hmk
    exact isWritten_succ.mp (h (m + 1) (by omega) (by omega))
  · intro h m him hmk
    cases m with
    | zero => exact isWritten_zero.mpr hne
    | succ m => exact isWritten_succ.mpr (h m (by omega) (by omega))

theorem getElem?_rank (h : lines[i]? = some line) (hne : line ≠ []) :
    (lines.filter (· ≠ []))[rank lines i]? = some line := by
  induction lines generalizing i with
  | nil => simp at h
  | cons first lines ih =>
    cases i with
    | zero =>
      cases h
      simp [hne]
    | succ i =>
      have hrest := ih (by simpa using h)
      by_cases hfirst : first = []
      · simpa [hfirst, rank_succ_of_blank] using hrest
      · simpa [hfirst, rank_succ] using hrest

end

@[simp] theorem rowAt_zero {line : List Char} {row : List (List Char)}
    {rows : List (List (List Char))} : rowAt ((line :: row) :: rows) 0 = 0 := by
  simp [rowAt]

/-- Two lines stand in the same row exactly if no line from the one to the other is blank. -/
theorem Parted.rowAt_eq_iff {lines : List (List Char)} {rows : List (List (List Char))}
    (h : Parted lines rows) {i k : Nat} (hik : i ≤ k) (hi : IsWritten lines i)
    (hk : IsWritten lines k) :
    rowAt rows (rank lines i) = rowAt rows (rank lines k) ↔ WrittenFromTo lines i k := by
  induction h generalizing i k with
  | nil => simp [IsWritten] at hi
  | blank h ih =>
    cases i with
    | zero => simp at hi
    | succ i =>
      obtain ⟨k, rfl⟩ : ∃ n, k = n + 1 := ⟨k - 1, by omega⟩
      rw [rank_succ_of_blank, rank_succ_of_blank, writtenFromTo_succ]
      exact ih (by omega) (by simpa using hi) (by simpa using hk)
  | @last line lines rows hne hlast h ih =>
    have later (r : Nat) : rowAt ([line] :: rows) (r + 1) = rowAt rows r + 1 := by simp [rowAt]
    cases k with
    | zero =>
      obtain rfl : i = 0 := by omega
      exact iff_of_true rfl (writtenFromTo_self hi)
    | succ k =>
      cases i with
      | zero =>
        -- the line behind this one is blank
        have hgap : ¬ WrittenFromTo lines 0 k := by
          intro hall
          obtain ⟨next, hnext, hwritten⟩ := hall 0 (by omega) (by omega)
          exact hwritten (hlast next (by simpa [List.head?_eq_getElem?] using hnext))
        rw [rank_succ hne, later, writtenFromTo_zero hne]
        simp [hgap]
      | succ i =>
        rw [rank_succ hne, rank_succ hne, later, later, writtenFromTo_succ,
          Nat.add_right_cancel_iff]
        exact ih (by omega) (by simpa using hi) (by simpa using hk)
  | @join line next lines row rows hne hnext h ih =>
    have later (r : Nat) : rowAt ((line :: next :: row) :: rows) (r + 1) =
        rowAt ((next :: row) :: rows) r := by
      simp [rowAt]
    cases k with
    | zero =>
      obtain rfl : i = 0 := by omega
      exact iff_of_true rfl (writtenFromTo_self hi)
    | succ k =>
      have hk' : IsWritten (next :: lines) k := by simpa using hk
      cases i with
      | zero =>
        have hrest := ih (Nat.zero_le k) (isWritten_zero.mpr hnext) hk'
        rw [rank_succ hne, later, writtenFromTo_zero hne, ← hrest]
        simp
      | succ i =>
        rw [rank_succ hne, rank_succ hne, later, later, writtenFromTo_succ]
        exact ih (by omega) (by simpa using hi) hk'

def joinLines (row : List (List Char)) : String :=
  "\n".intercalate (row.map String.ofList)

theorem paragraphs_eq (text : String) :
    paragraphs text = (rowsOf (trimmedLines text)).map joinLines := rfl

/-- The number of the paragraph that holds a line which is not blank. The lines of all paragraphs
are the lines that are not blank, so that its place among these tells. -/
def paragraphOf (text : String) (i : Nat) : Nat :=
  rowAt ((paragraphs text).map fun p => linesOf p.toList) (rank (trimmedLines text) i)

theorem toList_joinLines (row : List (List Char)) :
    (joinLines row).toList = ['\n'].intercalate row := by
  simp [joinLines, String.toList_intercalate, Function.comp_def]

theorem linesOf_joinLines {row : List (List Char)} (hn : ∀ line ∈ row, '\n' ∉ line)
    (hrow : [] ∉ row) : linesOf (joinLines row).toList = row := by
  rw [toList_joinLines]
  exact linesOf_intercalate hn fun hlast => hrow (List.mem_of_getLast? hlast)

theorem intercalate_append {α : Type} (sep : List α) {xs ys : List (List α)} (hxs : xs ≠ [])
    (hys : ys ≠ []) :
    sep.intercalate (xs ++ ys) = sep.intercalate xs ++ sep ++ sep.intercalate ys := by
  induction xs with
  | nil => exact absurd rfl hxs
  | cons x xs ih =>
    cases xs with
    | nil =>
      obtain ⟨y, ys, rfl⟩ := List.exists_cons_of_ne_nil hys
      simp [List.intercalate_cons_cons]
    | cons x' xs =>
      have hrest := ih (by simp)
      simp only [List.cons_append] at hrest ⊢
      rw [List.intercalate_cons_cons, hrest, List.intercalate_cons_cons]
      simp

section

variable {rows : List (List (List Char))}

theorem mem_intercalate_blank {line : List Char} (h : line ∈ [[]].intercalate rows) :
    line = [] ∨ ∃ row ∈ rows, line ∈ row := by
  induction rows with
  | nil => simp at h
  | cons row rows ih =>
    cases rows with
    | nil => exact .inr ⟨row, by simp, by simpa using h⟩
    | cons next rows =>
      rw [List.intercalate_cons_cons, List.append_assoc, List.mem_append] at h
      rcases h with h | h
      · exact .inr ⟨row, by simp, h⟩
      rcases List.mem_cons.mp h with h | h
      · exact .inl h
      · refine (ih h).imp_right ?_
        rintro ⟨row', hrow', hline⟩
        exact ⟨row', List.mem_cons_of_mem _ hrow', hline⟩

theorem exists_last_intercalate_blank (hrows : rows ≠ []) (hne : [] ∉ rows) :
    ∃ row ∈ rows, ∃ line ∈ row, ([[]].intercalate rows).getLast? = some line := by
  induction rows with
  | nil => exact absurd rfl hrows
  | cons row rows ih =>
    rw [List.mem_cons, not_or] at hne
    cases rows with
    | nil =>
      obtain ⟨line, hline⟩ :=
        List.getLast?_isSome.mpr (Ne.symm hne.1) |> Option.isSome_iff_exists.mp
      exact ⟨row, by simp, line, List.mem_of_getLast? hline, by simpa using hline⟩
    | cons next rows =>
      obtain ⟨row', hrow', line, hline, hlast⟩ := ih (by simp) hne.2
      refine ⟨row', List.mem_cons_of_mem _ hrow', line, hline, ?_⟩
      rw [List.intercalate_cons_cons, List.getLast?_append, hlast, Option.some_or]

/-- Rows that are joined with a blank line between any two of them are joined from their lines. -/
theorem toList_intercalate_joinLines (hne : [] ∉ rows) :
    ("\n\n".intercalate (rows.map joinLines)).toList =
      ['\n'].intercalate ([[]].intercalate rows) := by
  rw [String.toList_intercalate, List.map_map,
    show String.toList ∘ joinLines = (['\n'].intercalate ·) from funext toList_joinLines]
  induction rows with
  | nil => rfl
  | cons row rows ih =>
    rw [List.mem_cons, not_or] at hne
    cases rows with
    | nil => simp
    | cons next rows =>
      have hrest := ih hne.2
      have hnonempty : [[]].intercalate (next :: rows) ≠ [] := by
        obtain ⟨_, _, _, _, hlast⟩ := exists_last_intercalate_blank (by simp) hne.2
        intro hnil
        rw [hnil] at hlast
        cases hlast
      rw [List.map_cons] at hrest ⊢
      rw [List.map_cons, List.intercalate_cons_cons, hrest, List.intercalate_cons_cons,
        List.append_assoc row, intercalate_append _ (Ne.symm hne.1) (by simp),
        intercalate_append _ (by simp) hnonempty]
      simp

end

/-- The lines of the paragraphs are the rows of the text. -/
theorem map_linesOf_paragraphs (text : String) :
    (paragraphs text).map (fun p => linesOf p.toList) = rowsOf (trimmedLines text) := by
  have hparted := parted_rowsOf (trimmedLines text)
  rw [paragraphs_eq, List.map_map]
  refine (List.map_congr_left fun row hrow => ?_).trans (List.map_id _)
  refine linesOf_joinLines (fun line hline => ?_) fun hnil => (hparted.mem_of_mem hrow hnil).2 rfl
  exact (isTrimmed_of_mem (hparted.mem_of_mem hrow hline).1).2

theorem paragraphs_intercalate (text : String) :
    paragraphs ("\n\n".intercalate (paragraphs text)) = paragraphs text := by
  have hparted := parted_rowsOf (trimmedLines text)
  have hrows : ∀ row ∈ rowsOf (trimmedLines text), [] ∉ row :=
    fun row hrow hnil => (hparted.mem_of_mem hrow hnil).2 rfl
  have htrimmed : ∀ line ∈ [[]].intercalate (rowsOf (trimmedLines text)), IsTrimmed line := by
    intro line hline
    rcases mem_intercalate_blank hline with rfl | ⟨row, hrow, hline⟩
    · exact ⟨rfl, by simp⟩
    · exact isTrimmed_of_mem (hparted.mem_of_mem hrow hline).1
  have hlast : ([[]].intercalate (rowsOf (trimmedLines text))).getLast? ≠ some [] := by
    intro hnil
    by_cases hempty : rowsOf (trimmedLines text) = []
    · simp [hempty] at hnil
    · obtain ⟨row, hrow, line, hline, hlast⟩ :=
        exists_last_intercalate_blank hempty hparted.nil_not_mem
      rw [hlast, Option.some.injEq] at hnil
      exact hrows row hrow (hnil ▸ hline)
  have hlines : trimmedLines ("\n\n".intercalate (paragraphs text)) =
      [[]].intercalate (rowsOf (trimmedLines text)) := by
    rw [trimmedLines, paragraphs_eq, toList_intercalate_joinLines hparted.nil_not_mem,
      linesOf_intercalate (fun line hline => (htrimmed line hline).2) hlast]
    exact (List.map_congr_left fun line hline => (htrimmed line hline).1).trans (List.map_id _)
  rw [paragraphs_eq, hlines, (Parted.intercalate hparted.nil_not_mem hrows).rowsOf_eq,
    paragraphs_eq]

/-- The paragraphs of a text. Their lines are those of the text that are not blank, in order and
without the blanks around them; none of them is empty or holds an empty line; two lines are in the
same paragraph exactly if no line from the one to the other is blank; and paragraphs with a blank
line between any two of them are read back as they are. -/
theorem paragraphs_exact (text : String) :
    (paragraphs text).flatMap (fun p => linesOf p.toList) = (trimmedLines text).filter (· ≠ []) ∧
    (∀ p ∈ paragraphs text, p ≠ "" ∧ [] ∉ linesOf p.toList) ∧
    (∀ i line, (trimmedLines text)[i]? = some line → line ≠ [] →
      ∃ p, (paragraphs text)[paragraphOf text i]? = some p ∧ line ∈ linesOf p.toList) ∧
    (∀ i k, i ≤ k → IsWritten (trimmedLines text) i → IsWritten (trimmedLines text) k →
      (paragraphOf text i = paragraphOf text k ↔ ∀ m, i ≤ m → m ≤ k →
        IsWritten (trimmedLines text) m)) ∧
    paragraphs ("\n\n".intercalate (paragraphs text)) = paragraphs text := by
  have hparted := parted_rowsOf (trimmedLines text)
  have hmap := map_linesOf_paragraphs text
  have hflat : (paragraphs text).flatMap (fun p => linesOf p.toList) =
      (trimmedLines text).filter (· ≠ []) := by
    rw [List.flatMap_def, hmap, hparted.flatten]
  refine ⟨hflat, fun p hp => ?_, fun i line hline hne => ?_, fun i k hik hi hk => ?_,
    paragraphs_intercalate text⟩
  · have hrow : linesOf p.toList ∈ rowsOf (trimmedLines text) := hmap ▸ List.mem_map_of_mem hp
    refine ⟨?_, fun hnil => (hparted.mem_of_mem hrow hnil).2 rfl⟩
    rintro rfl
    exact hparted.nil_not_mem (by simpa [linesOf] using hrow)
  · have hplace := getElem?_rank hline hne
    rw [← hflat, List.flatMap_def] at hplace
    obtain ⟨row, hrow, hmem⟩ := exists_rowAt hplace
    rw [List.getElem?_map, Option.map_eq_some_iff] at hrow
    obtain ⟨p, hp, rfl⟩ := hrow
    exact ⟨p, hp, hmem⟩
  · rw [paragraphOf, paragraphOf, hmap]
    exact hparted.rowAt_eq_iff hik hi hk

/-- A line of blanks only separates, and what ends a line does not matter. -/
example : paragraphs " a\r\n b\n\t\n\nc" = ["a\nb", "c"] := by decide +kernel

end InterfaceCatalog
