import Mathlib.Data.List.Basic

namespace InterfaceCatalog

variable {α β : Type} [BEq α] [LawfulBEq α] {pairs : List (α × β)} {key other : α} {value : β}

theorem lookup_filter [DecidableEq α] (pairs : List (α × β)) (key other : α) :
    (pairs.filter (·.1 != key)).lookup other = if other = key then none
      else pairs.lookup other := by
  induction pairs with
  | nil => simp
  | cons pair pairs ih =>
    obtain ⟨first, value⟩ := pair
    by_cases hfirst : first = key
    · subst hfirst
      by_cases hother : other = first
      · simpa [hother] using ih
      · simpa [hother, List.lookup_cons, beq_eq_false_iff_ne.mpr hother] using ih
    · by_cases hother : other = first
      · subst hother
        simp [hfirst]
      · simpa [hfirst, List.lookup_cons, beq_eq_false_iff_ne.mpr hother] using ih

theorem mem_of_lookup (h : pairs.lookup key = some value) : (key, value) ∈ pairs := by
  obtain ⟨front, rest, rfl, -⟩ := List.lookup_eq_some_iff.mp h
  simp

theorem lookup_of_mem (hn : (pairs.map Prod.fst).Nodup) (h : (key, value) ∈ pairs) :
    pairs.lookup key = some value := by
  induction pairs with
  | nil => simp at h
  | cons pair pairs ih =>
    obtain ⟨first, value'⟩ := pair
    rw [List.map_cons, List.nodup_cons] at hn
    rcases List.mem_cons.mp h with hfirst | hrest
    · cases hfirst
      simp
    · have hkey : key ≠ first := by
        intro he
        exact hn.1 (List.mem_map.mpr ⟨_, hrest, he⟩)
      rw [List.lookup_cons, beq_eq_false_iff_ne.mpr hkey]
      exact ih hn.2 hrest

/-- What one key stands for is left out together with it. -/
theorem perm_filter_of_lookup (hn : (pairs.map Prod.fst).Nodup)
    (h : pairs.lookup key = some value) :
    (pairs.map Prod.snd).Perm (value :: (pairs.filter (·.1 != key)).map Prod.snd) := by
  induction pairs with
  | nil => simp at h
  | cons pair pairs ih =>
    obtain ⟨first, value'⟩ := pair
    rw [List.map_cons, List.nodup_cons] at hn
    by_cases hkey : key = first
    · subst hkey
      have hvalue : value' = value := by simpa using h
      have hrest : pairs.filter (·.1 != key) = pairs := by
        rw [List.filter_eq_self]
        intro pair hmem
        have hne : pair.1 ≠ key := fun he => hn.1 (List.mem_map.mpr ⟨pair, hmem, he⟩)
        simpa using hne
      simp [hvalue, hrest]
    · rw [List.lookup_cons, beq_eq_false_iff_ne.mpr hkey] at h
      have hrest := (ih hn.2 h).cons value'
      have hfirst : (first != key) = true := by simpa using Ne.symm hkey
      rw [List.filter_cons_of_pos (by simpa using hfirst)]
      exact hrest.trans (.swap _ _ _)

end InterfaceCatalog
