import InterfaceCatalog.Text.Qualified

namespace InterfaceCatalog

theorem segmentsOf_ne_nil (cs : List Char) : segmentsOf cs ≠ [] := by
  cases cs with
  | nil => simp [segmentsOf]
  | cons c cs =>
    unfold segmentsOf
    split
    · simp
    · split <;> simp

theorem intercalate_segmentsOf (cs : List Char) : ['.'].intercalate (segmentsOf cs) = cs := by
  induction cs with
  | nil => simp [segmentsOf]
  | cons c cs ih =>
    obtain ⟨s, rest, hs⟩ := List.exists_cons_of_ne_nil (segmentsOf_ne_nil cs)
    rw [hs] at ih
    simp only [segmentsOf, hs]
    split
    · next hc => simp [List.intercalate_cons_cons, ih, hc]
    · cases rest with
      | nil => simpa using ih
      | cons s' rest =>
        rw [List.intercalate_cons_cons] at ih ⊢
        simpa using ih

theorem intercalate_concat {α : Type} (sep : List α) {xs : List (List α)} (hxs : xs ≠ [])
    (x : List α) : sep.intercalate (xs ++ [x]) = sep.intercalate xs ++ sep ++ x := by
  induction xs with
  | nil => exact absurd rfl hxs
  | cons y ys ih =>
    cases ys with
    | nil => simp [List.intercalate_cons_cons]
    | cons z zs =>
      have hrest := ih (by simp)
      simp only [List.cons_append] at hrest ⊢
      rw [List.intercalate_cons_cons, hrest, List.intercalate_cons_cons]
      simp

theorem join_of_splitLast? {name target last : String} (h : splitLast? name = some (target, last)) :
    target ++ "." ++ last = name := by
  unfold splitLast? at h
  dsimp only at h
  split at h
  · cases h
  next hlength =>
    simp only [Option.some.injEq, Prod.mk.injEq] at h
    obtain ⟨rfl, rfl⟩ := h
    have hne : segments name ≠ [] := fun he => hlength (by simp [he])
    have hparts : (segments name).dropLast ++ [(segments name).getLast?.getD ""] =
        segments name := by
      rw [List.getLast?_eq_some_getLast hne]
      exact List.dropLast_concat_getLast hne
    have hinit : (segments name).dropLast ≠ [] := by
      intro he
      have hnone := congrArg List.length he
      simp only [List.length_dropLast, List.length_nil] at hnone
      omega
    have hfront : (segments name).dropLast.map String.toList ≠ [] :=
      fun he => hinit (List.map_eq_nil_iff.mp he)
    apply String.toList_injective
    have hjoin := intercalate_concat ['.'] (x := ((segments name).getLast?.getD "").toList) hfront
    rw [String.toList_append, String.toList_append, String.toList_intercalate]
    refine hjoin.symm.trans ?_
    have hmap := congrArg (List.map String.toList) hparts
    rw [List.map_append, List.map_singleton] at hmap
    rw [hmap, segments, List.map_map]
    simpa [Function.comp_def] using intercalate_segmentsOf name.toList

end InterfaceCatalog
