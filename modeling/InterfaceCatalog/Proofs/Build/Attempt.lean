import InterfaceCatalog.Proofs.Build.Rows

namespace InterfaceCatalog

/-- What an attempt at a part of a build comes to: a success with `Q`, or a failure with `F`. -/
def Attempts {α : Type} (p : Place) (d : Draft) (m : Building α) (Q : α → Draft → Prop)
    (F : LoadError → Prop) : Prop :=
  (p.progress d).Sound p.outer →
    match m d with
    | .ok a d' => Q a d'
    | .error e _ => F e

namespace Attempts

variable {α β : Type} {p : Place} {rewritten : List Change} {d : Draft} {m : Building α}
  {Q R : α → Draft → Prop} {F : LoadError → Prop}

theorem of_eq {a : α} {d' : Draft} (h : m d = .ok a d') (hq : Q a d') : Attempts p d m Q F := by
  intro _
  rw [h]
  exact hq

theorem pure {a : α} (h : Q a d) : Attempts p d (Pure.pure a) Q F :=
  of_eq rfl h

/-- That the first part runs carries the account of the state over to the second one. -/
theorem bind {f : α → Building β} {S : β → Draft → Prop} (hrun : Runs p rewritten d m R)
    (hm : Attempts p d m Q F)
    (hf : ∀ a d', d.Grows rewritten d' → R a d' → Q a d' → Attempts p d' (f a) S F) :
    Attempts p d (m >>= f) S F := by
  intro hs
  have hran := hrun hs
  have hattempt := hm hs
  change match EStateM.bind m f d with | .ok b d' => _ | .error e _ => _
  unfold EStateM.bind
  cases hmd : m d with
  | error e d' =>
    rw [hmd] at hattempt
    exact hattempt
  | ok a d' =>
    rw [hmd] at hran hattempt
    obtain ⟨hadvances, hgrows, hr⟩ := hran
    exact hf a d' hgrows hr hattempt (Moves.sound hadvances.moves hs)

theorem registry {f : Registry → Building α} (h : Attempts p d (f d.catalog.registry) Q F) :
    Attempts p d (Building.registry >>= f) Q F :=
  h

theorem imp {R : α → Draft → Prop} (hm : Attempts p d m Q F) (hQ : ∀ a d', Q a d' → R a d') :
    Attempts p d m R F := by
  intro hs
  have hattempt := hm hs
  cases hmd : m d with
  | error e d' =>
    rw [hmd] at hattempt
    exact hattempt
  | ok a d' =>
    rw [hmd] at hattempt
    exact hQ a d' hattempt

theorem grows (hrun : Runs p rewritten d m R) (hm : Attempts p d m Q F) :
    Attempts p d m (fun a d' => d.Grows rewritten d' ∧ Q a d') F := by
  rw [← bind_pure m]
  exact .bind hrun hm fun _ _ g _ hq => .pure ⟨g, hq⟩

/-- The account of the state may be used in an attempt. -/
theorem sound (hm : (p.progress d).Sound p.outer → Attempts p d m Q F) : Attempts p d m Q F :=
  fun hs => hm hs hs

theorem each {I : Draft → Prop} {P : α → β → Draft → Prop} (hP : ∀ a, Lasting [] (P a))
    {build : α → Building β} {as : List α}
    (hrun : ∀ a ∈ as, ∀ d, Runs p [] d (build a) fun _ _ => True)
    (hbuild : ∀ a ∈ as, ∀ d, I d → Attempts p d (build a) (fun b d' => I d' ∧ P a b d') F)
    {d : Draft} (hI : I d) :
    Attempts p d (Building.each build as)
      (fun bs d' => I d' ∧ List.Forall₂ (fun a b => P a b d') as bs) F := by
  induction as generalizing d with
  | nil => exact .pure ⟨hI, .nil⟩
  | cons a as ih =>
    refine .bind (hrun a (by simp) d) (hbuild a (by simp) d hI) fun b d₁ _ _ h₁ => ?_
    have hrest : Runs p [] d₁ (Building.each build as) fun _ _ => True :=
      (each_runs_forall₂ (P := fun _ _ _ => True) (fun _ => lasting_true)
        fun a' ha' d' _ => hrun a' (by simp [ha']) d').imp fun _ _ _ _ => trivial
    refine .bind hrest (ih (fun a' ha' => hrun a' (by simp [ha']))
      (fun a' ha' => hbuild a' (by simp [ha']))
      h₁.1) fun bs d₂ g₂ _ h₂ => ?_
    exact .pure ⟨h₂.1, .cons (hP a b g₂ h₁.2) h₂.2⟩

end Attempts

end InterfaceCatalog
