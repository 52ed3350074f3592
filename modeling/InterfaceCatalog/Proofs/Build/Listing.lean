import InterfaceCatalog.Proofs.Build.Reproduced

namespace InterfaceCatalog

def Change.nameUnder? (h : Heading) : Change → Option String
  | registered k name => if k = h then some name else none
  | inserted .. => none

/-- The names that changes enter under a heading. -/
def namesUnder (h : Heading) (changes : List Change) : List String :=
  changes.filterMap (Change.nameUnder? h)

@[simp] theorem namesUnder_append (h : Heading) (changes changes' : List Change) :
    namesUnder h (changes ++ changes') = namesUnder h changes ++ namesUnder h changes' :=
  List.filterMap_append

theorem namesUnder_registered (h k : Heading) (name : String) :
    namesUnder h [.registered k name] = if k = h then [name] else [] := by
  by_cases hk : k = h <;> simp [namesUnder, Change.nameUnder?, hk]

namespace Catalog

def fileEntries (c : Catalog) (h : Heading) (file : String) : List (Entry h.table) :=
  (c.entries h).filter fun e => e.file = file

/-- The entries of a file are those that its build has made, in order. -/
def Lists (c : Catalog) (o : Owner) : Prop :=
  ∀ h, (c.fileEntries h o.file).map Entry.name = namesUnder h (registrations o.journal)

variable {c : Catalog} {o : Owner}

theorem Lists.congr (hl : c.Lists o) {c' : Catalog} (he : ∀ h, c'.entries h = c.entries h) :
    c'.Lists o := by
  intro h
  rw [fileEntries, he]
  exact hl h

theorem fileEntries_enter_self (c : Catalog) (h : Heading) (e : Entry h.table) :
    (c.enter h e).fileEntries h e.file = c.fileEntries h e.file ++ [e] := by
  simp [fileEntries, entries_enter_self]

theorem fileEntries_enter_of_ne (c : Catalog) {h k : Heading} {e : Entry h.table} {file : String}
    (hn : h = k → e.file ≠ file) : (c.enter h e).fileEntries k file = c.fileEntries k file := by
  by_cases hk : h = k
  · subst hk
    simp [fileEntries, entries_enter_self, hn rfl]
  · rw [fileEntries, entries_enter_of_ne c e hk, fileEntries]

/-- A name that a build enters comes last in its file. -/
theorem Lists.enter_self (hl : c.Lists o) (h : Heading) (name : String) (id : Id h.table) :
    (c.enter h ⟨name, o.file, id⟩).Lists (o.note (.registered h name)) := by
  intro k
  have hjournal : registrations (o.note (.registered h name)).journal =
      registrations o.journal ++ [.registered h name] := registrations_registered h name o.journal
  rw [hjournal, namesUnder_append, ← hl k, namesUnder_registered]
  by_cases hk : h = k
  · subst hk
    have hself := fileEntries_enter_self c h ⟨name, o.file, id⟩
    rw [if_pos rfl]
    exact (congrArg (List.map Entry.name) hself).trans List.map_append
  · rw [if_neg hk, List.append_nil]
    exact congrArg (List.map Entry.name) (fileEntries_enter_of_ne c fun he => absurd he hk)

theorem Lists.enter_of_ne (hl : c.Lists o) {h : Heading} {e : Entry h.table}
    (hn : e.file ≠ o.file) : (c.enter h e).Lists o := by
  intro k
  rw [fileEntries_enter_of_ne c fun _ => hn]
  exact hl k

/-- A file that no build is of has no entries. -/
theorem lists_begin {owners : List Owner} (ha : Accounted c owners) {file : String}
    (hf : file ∉ owners.map Owner.file) : c.Lists ⟨file, []⟩ := by
  intro h
  have hnone : c.fileEntries h file = [] := by
    refine List.filter_eq_nil_iff.mpr fun e he hfile => ?_
    obtain ⟨o, ho, hof, -⟩ := ha.owner_of_entry h e he
    exact hf (List.mem_map.mpr ⟨o, ho, hof.trans (by simpa using hfile)⟩)
  rw [hnone]
  rfl

/-- Taking back a build leaves the entries of the others. -/
theorem Lists.rollback {o' : Owner} {owners : List Owner} (ha : Accounted c (o' :: owners))
    (ho : o ∈ owners) (hl : c.Lists o) : (c.rollback o'.journal).Lists o := by
  intro h
  rw [← hl h, fileEntries, entries_rollback, List.filter_filter, fileEntries]
  congr 1
  refine List.filter_congr fun e he => ?_
  by_cases hfile : e.file = o.file
  · obtain ⟨owner, howner, hof, hr, -⟩ := ha.owner_of_entry h e he
    have hsame : owner = o :=
      List.inj_on_of_nodup_map ha.files_nodup howner (List.mem_cons_of_mem _ ho)
      (hof.trans hfile)
    have hout : Change.registered h e.name ∉ o'.journal :=
      fun hc => ha.owner_unique hc ho (hsame ▸ hr)
    simp [hfile, hout]
  · simp [hfile]

end Catalog

variable {p q : Progress}

/-- Every build has its entries in order. -/
def Progress.Listed (p : Progress) : Prop :=
  ∀ o ∈ p.catalog.owners p.frames, p.catalog.Lists o

theorem Move.listed (h : Move [] p q) (hp : p.Sound []) (hl : p.Listed) : q.Listed := by
  cases h with
  | step h =>
    cases h with
    | @insert c fr rest t record backed =>
      rintro o (_ | ⟨_, ho⟩)
      · exact hl fr.owner List.mem_cons_self
      · exact hl o (List.mem_cons_of_mem _ ho)
    | modify f own found backed => exact hl
    | @register c fr rest h name id free own unlisted =>
      rintro o (_ | ⟨_, ho⟩)
      · exact (hl fr.owner List.mem_cons_self).enter_self h name id
      · have ha : Accounted c (fr.owner :: c.owners rest) := by
          simpa [Progress.Sound, Catalog.owners] using hp
        refine (hl o (List.mem_cons_of_mem _ ho)).enter_of_ne fun he => ?_
        exact (List.nodup_cons.mp ha.files_nodup).1 (List.mem_map.mpr ⟨o, ho, he.symm⟩)
    | @begin c frames file source imports unparsed idle =>
      rintro o (_ | ⟨_, ho⟩)
      · have ha : Accounted c (c.owners frames) := by simpa [Progress.Sound] using hp
        refine Catalog.lists_begin ha ?_
        simpa [files_owners] using ⟨by simpa using idle, unparsed⟩
      · exact hl o ho
    | @finish c fr rest complete =>
      intro o ho
      refine Catalog.Lists.congr (hl o ?_) fun _ => rfl
      simp only [Catalog.owners, Catalog.conclude, List.map_append, List.mem_append, List.map_cons,
        List.mem_cons] at ho ⊢
      rcases ho with ho | ho | ho
      · exact .inl (.inr ho)
      · exact .inr ho
      · have hsame : (fr.build c rest).owner = fr.owner := rfl
        exact .inl (.inl (by simpa [hsame] using ho))
  | @abandon c fr rest =>
    have ha : Accounted c (fr.owner :: c.owners rest) := by
      simpa [Progress.Sound, Catalog.owners] using hp
    intro o ho
    have hmem : o ∈ c.owners rest := by
      rwa [Catalog.owners, Catalog.builds_rollback] at ho
    exact Catalog.Lists.rollback ha hmem (hl o (List.mem_cons_of_mem _ hmem))

theorem Moves.listed (h : Moves [] p q) (hp : p.Sound []) (hl : p.Listed) : q.Listed := by
  induction h with
  | refl => exact hl
  | tail hms hm ih => exact hm.listed (Moves.sound hms hp) ih

theorem listed_empty : Progress.Listed ⟨{}, []⟩ := by
  simp [Progress.Listed, Catalog.owners]

end InterfaceCatalog
