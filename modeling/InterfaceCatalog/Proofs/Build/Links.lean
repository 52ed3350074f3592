import InterfaceCatalog.Proofs.Build.Extension

namespace InterfaceCatalog

namespace Progress

/-- A build ended while the file was being built, and that file is still being built
or is parsed since. -/
def Surrounds (p : Progress) (file : String) (b : Build) : Prop :=
  (∃ fr ∈ p.frames, fr.file = file ∧ b.file ∈ p.catalog.parsed.drop fr.start) ∨
    ∃ b' ∈ p.catalog.builds, b'.file = file ∧ b.file ∈ b'.inner

/-- A file that was being built around a build failed afterwards. -/
def Forsaken (p : Progress) (b : Build) : Prop :=
  ∃ file ∈ b.outer, ¬ p.Surrounds file b

end Progress

/-- The first build still went on when the second one, which was begun within it, ended. -/
def Build.IsAround (o b : Build) : Prop :=
  o.file ∈ b.outer ∧ b.file ∈ o.inner

/-- A run of the machine with the builds that failed in it, newest first, as they were then. -/
inductive Course : Progress → List Build → Progress → Prop
  | refl (p : Progress) : Course p [] p
  | step {p q r : Progress} {failed : List Build} (h : Course p failed q) (hs : Step [] q r) :
      Course p failed r
  | abandon {p : Progress} {failed : List Build} {c : Catalog} {fr : Frame} {rest : List Frame}
      (h : Course p failed ⟨c, fr :: rest⟩) :
      Course p (fr.build c rest :: failed) ⟨c.rollback fr.journal, rest⟩

/-- A handle that a build under way may hold: its own, or a shared one from a parsed file or from
a build around it. -/
def Frame.MayHold (fr : Frame) (c : Catalog) (outer : List Frame) (ref : Reference) : Prop :=
  Change.inserted ref.table ref.id ∈ fr.journal ∨
    ref.table.IsShared ∧ ∃ o ∈ c.owners outer, Change.inserted ref.table ref.id ∈ o.journal

/-- The builds of a stack refer outwards only. -/
def RefersOutwards (c : Catalog) : List Frame → Prop
  | [] => True
  | fr :: outer =>
    (∀ {t : Table} (id : Id t) (r : Record t), Change.inserted t id ∈ fr.journal →
      c.get? id = some r → ∀ ref ∈ references t r, fr.MayHold c outer ref) ∧ RefersOutwards c outer

/-- A handle that a parsed file may hold: its own, or a shared one from a parsed file, from a build
that is still around it, or from one that was around it when it failed. -/
def Build.MayHold (b : Build) (p : Progress) (failed : List Build) (ref : Reference) : Prop :=
  Change.inserted ref.table ref.id ∈ b.journal ∨
    ref.table.IsShared ∧
      ((∃ o ∈ failed, o.IsAround b ∧ Change.inserted ref.table ref.id ∈ o.journal) ∨
        (∃ b' ∈ p.catalog.builds, Change.inserted ref.table ref.id ∈ b'.journal) ∨
        ∃ fr ∈ p.frames, fr.file ∈ b.outer ∧ b.file ∈ p.catalog.parsed.drop fr.start ∧
          Change.inserted ref.table ref.id ∈ fr.journal)

/-- What is kept about the references of all records, given the builds that failed. What was around
a parsed file surrounds it until it fails, and never again. -/
structure Progress.Linked (p : Progress) (failed : List Build) : Prop where
  start_le : ∀ fr ∈ p.frames, fr.start ≤ p.catalog.parsed.length
  outwards : RefersOutwards p.catalog p.frames
  around : ∀ b ∈ p.catalog.builds, ∀ file ∈ b.outer,
    p.Surrounds file b ∨ ∃ o ∈ failed, o.file = file ∧ b.file ∈ o.inner
  inner_subset : ∀ o ∈ failed, o.inner ⊆ p.catalog.parsed
  gone : ∀ o ∈ failed, ∀ b : Build, b.file ∈ o.inner → ¬ p.Surrounds o.file b
  held : ∀ b ∈ p.catalog.builds, ∀ {t : Table} (id : Id t) (r : Record t),
    Change.inserted t id ∈ b.journal → p.catalog.get? id = some r →
    ∀ ref ∈ references t r, b.MayHold p failed ref

section

variable {p q : Progress} {failed : List Build}

/-- Only the innermost build touches its records. -/
theorem Move.get?_of_owned (h : Move [] p q) (hp : p.Sound []) {o : Owner}
    (ho : o ∈ p.catalog.owners p.frames.tail) {t : Table} {id : Id t}
    (hid : Change.inserted t id ∈ o.journal) : q.catalog.get? id = p.catalog.get? id := by
  have foreign : ∀ {c : Catalog} {fr : Frame} {rest : List Frame},
    Progress.Sound [] ⟨c, fr :: rest⟩ →
      o ∈ c.owners rest → Change.inserted t id ∉ fr.journal := by
    intro c fr rest hs hmem hc
    have ha : Accounted c (fr.owner :: c.owners rest) := by
      simpa [Progress.Sound, Catalog.owners] using hs
    exact ha.owner_unique hc hmem hid
  cases h with
  | step h =>
    cases h with
    | @insert c fr rest u record backed =>
      have hl : c.Live id := by
        have ha : Accounted c (c.owners (fr :: rest ++ [])) := hp
        refine ha.live (o := o) ?_ hid
        simp only [Catalog.owners, List.append_nil, List.map_cons, List.cons_append] at ho ⊢
        exact List.mem_cons_of_mem _ ho
      exact Catalog.get?_insert_of_live (Accounted.wellFormed hp) record hl
    | @modify c fr rest u other record f own found backed =>
      refine Catalog.get?_modify_of_ne c f fun he => ?_
      cases he
      exact foreign hp ho own
    | register free own unlisted => rfl
    | begin source imports unparsed idle => rfl
    | finish complete => rfl
  | @abandon c fr rest => rw [Catalog.get?_rollback, if_neg (foreign hp ho)]

theorem Move.builds_subset (h : Move [] p q) : p.catalog.builds ⊆ q.catalog.builds := by
  cases h with
  | step h =>
    cases h with
    | finish complete => exact List.subset_append_left _ _
    | _ => exact List.Subset.refl _
  | abandon => rw [Catalog.builds_rollback]; exact List.Subset.refl _

theorem Frame.MayHold.mono {fr fr' : Frame} {c c' : Catalog} {outer : List Frame} {ref : Reference}
    (h : fr.MayHold c outer ref) (hj : fr.journal ⊆ fr'.journal) (hb : c.builds ⊆ c'.builds) :
    fr'.MayHold c' outer ref := by
  rcases h with h | ⟨hs, o, ho, hid⟩
  · exact .inl (hj h)
  · refine .inr ⟨hs, o, ?_, hid⟩
    rcases List.mem_append.mp ho with ho | ho
    · exact List.mem_append_left _ ho
    · exact List.mem_append_right _ (List.map_subset _ hb ho)

theorem Frame.mayHold_of_backed {c : Catalog} {fr : Frame} {rest : List Frame}
    (hs : Progress.Sound [] ⟨c, fr :: rest⟩) {t : Table} {id : Id t} (h : Backed c fr.journal id) :
    fr.MayHold c rest ⟨t, id⟩ := by
  rcases h with h | ⟨hshared, hl⟩
  · exact .inl h
  · have ha : Accounted c (fr.owner :: c.owners rest) := by
      simpa [Progress.Sound, Catalog.owners] using hs
    obtain ⟨o, ho, hid⟩ := (ha.live_iff id).mp hl
    rcases List.mem_cons.mp ho with rfl | ho
    · exact .inl hid
    · exact .inr ⟨hshared, o, ho, hid⟩

theorem RefersOutwards.mono {c c' : Catalog} {frames : List Frame} (h : RefersOutwards c frames)
    (hb : c.builds ⊆ c'.builds)
    (hr : ∀ fr ∈ frames, ∀ {t : Table} (id : Id t), Change.inserted t id ∈ fr.journal →
      c'.get? id = c.get? id) : RefersOutwards c' frames := by
  induction frames with
  | nil => trivial
  | cons fr outer ih =>
    refine ⟨fun id r hid hget ref href => ?_, ih h.2 fun fr' hfr' => hr fr' (by simp [hfr'])⟩
    rw [hr fr (by simp) id hid] at hget
    exact (h.1 id r hid hget ref href).mono (List.Subset.refl _) hb

/-- The builds around the innermost one are not touched. -/
theorem Move.refersOutwards_tail (h : Move [] p q) (hp : p.Sound [])
    (ho : RefersOutwards p.catalog p.frames.tail) : RefersOutwards q.catalog p.frames.tail := by
  refine ho.mono h.builds_subset fun fr hfr t id hid => h.get?_of_owned hp (o := fr.owner) ?_ hid
  exact List.mem_append_left _ (List.mem_map_of_mem hfr)

theorem Move.outwards (h : Move [] p q) (hp : p.Sound []) (ho : RefersOutwards p.catalog p.frames) :
    RefersOutwards q.catalog q.frames := by
  have htail : RefersOutwards p.catalog p.frames.tail → RefersOutwards q.catalog p.frames.tail :=
    h.refersOutwards_tail hp
  cases h with
  | step h =>
    cases h with
    | @insert c fr rest t record backed =>
      refine ⟨fun {u} id r hid hget ref href => ?_, htail ho.2⟩
      have wf := Accounted.wellFormed hp
      have hj : fr.journal ⊆ (fr.note (.inserted t (c.next t))).journal := List.subset_cons_self _ _
      rcases List.mem_cons.mp hid with hnew | hold
      · cases hnew
        rw [Catalog.get?_insert_next wf] at hget
        cases hget
        exact (Frame.mayHold_of_backed hp (backed ref href)).mono hj (List.Subset.refl _)
      · have hl : c.Live id := Accounted.live hp (o := fr.owner) (by simp [Catalog.owners]) hold
        rw [Catalog.get?_insert_of_live wf record hl] at hget
        exact (ho.1 id r hold hget ref href).mono hj (List.Subset.refl _)
    | @modify c fr rest t id record f own found backed =>
      refine ⟨fun {u} other r hid hget ref href => ?_, htail ho.2⟩
      by_cases he : Change.inserted u other = .inserted t id
      · cases he
        rw [Catalog.get?_modify_self, found] at hget
        cases hget
        rcases backed ref href with hold | hnew
        · exact (ho.1 id record own found ref hold).mono (List.Subset.refl _) (List.Subset.refl _)
        · exact (Frame.mayHold_of_backed hp hnew).mono (List.Subset.refl _) (List.Subset.refl _)
      · rw [Catalog.get?_modify_of_ne c f he] at hget
        exact (ho.1 other r hid hget ref href).mono (List.Subset.refl _) (List.Subset.refl _)
    | @register c fr rest h name id free own unlisted =>
      refine ⟨fun {u} other r hid hget ref href => ?_, htail ho.2⟩
      have hold : Change.inserted u other ∈ fr.journal := by simpa [Frame.note] using hid
      exact (ho.1 other r hold hget ref href).mono (List.subset_cons_self _ _) (List.Subset.refl _)
    | begin source imports unparsed idle =>
      exact ⟨fun id r hid => by simp at hid, ho⟩
    | finish complete => exact htail ho.2
  | abandon => exact htail ho.2

/-- What a build notes does not change what it surrounds. -/
theorem surrounds_note_iff {c : Catalog} {fr : Frame} {change : Change} {rest : List Frame}
    {file : String} {b : Build} :
    Progress.Surrounds ⟨c, fr.note change :: rest⟩ file b ↔
      Progress.Surrounds ⟨c, fr :: rest⟩ file b := by
  simp [Progress.Surrounds, Frame.note]

/-- A file that no longer surrounds a parsed one does not come to surround it again, not even when
it is built anew. -/
theorem Move.surrounds_of (h : Move [] p q) (hp : p.Sound []) {b : Build}
    (hparsed : b.file ∈ p.catalog.parsed) {file : String} (hs : q.Surrounds file b) :
    p.Surrounds file b := by
  cases h with
  | step h =>
    cases h with
    | @insert c fr rest t record backed => exact surrounds_note_iff.mp hs
    | modify f own found backed => exact hs
    | @register c fr rest h name id free own unlisted => exact surrounds_note_iff.mp hs
    | @begin c frames name source imports unparsed idle =>
      rcases hs with ⟨fr', hfr', hf, hd⟩ | hs
      · rcases List.mem_cons.mp hfr' with rfl | hfr'
        · rw [Catalog.parsed, List.drop_eq_nil_of_le (by simp)] at hd
          simp at hd
        · exact .inl ⟨fr', hfr', hf, hd⟩
      · exact .inr hs
    | @finish c fr rest complete =>
      have hne : b.file ≠ fr.file := by
        have hnodup := Accounted.files_nodup hp
        rw [files_owners] at hnodup
        have hdisjoint := (List.nodup_append.mp hnodup).2.2
        exact fun he => hdisjoint fr.file (by simp) b.file hparsed he.symm
      rcases hs with ⟨fr', hfr', hf, hd⟩ | ⟨b', hb', hf, hd⟩
      · refine .inl ⟨fr', by simp [hfr'], hf, ?_⟩
        have hsplit : (c.conclude (fr.build c (rest ++ []))).parsed = c.parsed ++ [fr.file] := by
          simp [Catalog.parsed, Catalog.conclude, Frame.build]
        rw [hsplit, List.drop_append, List.mem_append] at hd
        rcases hd with hd | hd
        · exact hd
        · exact absurd (List.mem_singleton.mp (List.mem_of_mem_drop hd)) hne
      · rcases List.mem_append.mp hb' with hb' | hb'
        · exact .inr ⟨b', hb', hf, hd⟩
        · cases List.mem_singleton.mp hb'
          exact .inl ⟨fr, by simp, hf, hd⟩
  | @abandon c fr rest =>
    simp only [Progress.Surrounds, Catalog.parsed, Catalog.builds_rollback] at hs ⊢
    rcases hs with ⟨fr', hfr', hf, hd⟩ | hs
    · exact .inl ⟨fr', by simp [hfr'], hf, hd⟩
    · exact .inr hs

/-- When the innermost build fails, nothing of its name is left. -/
theorem not_surrounds_abandoned {c : Catalog} {fr : Frame} {rest : List Frame}
    (hp : Progress.Sound [] ⟨c, fr :: rest⟩) (b : Build) :
    ¬ Progress.Surrounds ⟨c.rollback fr.journal, rest⟩ fr.file b := by
  have hnodup := Accounted.files_nodup hp
  rw [files_owners] at hnodup
  simp only [List.append_nil, List.map_cons, List.cons_append, List.nodup_cons, List.mem_append,
    not_or] at hnodup
  obtain ⟨⟨hframes, hparsed⟩, -⟩ := hnodup
  rintro (⟨fr', hfr', hf, -⟩ | ⟨b', hb', hf, -⟩)
  · exact hframes (hf ▸ List.mem_map_of_mem hfr')
  · rw [Catalog.builds_rollback] at hb'
    exact hparsed (hf ▸ List.mem_map_of_mem hb')

theorem mem_drop_conclude {c : Catalog} {b : Build} {file : String} {n : Nat}
    (h : file ∈ c.parsed.drop n) : file ∈ (c.conclude b).parsed.drop n := by
  simp only [Catalog.parsed, Catalog.conclude, List.map_append, List.drop_append]
  exact List.mem_append_left _ h

/-- What the innermost build notes is held as well as what it had noted. -/
theorem Build.MayHold.note {b : Build} {ref : Reference} {c c' : Catalog} {fr : Frame}
    {rest : List Frame} {change : Change} (hm : b.MayHold ⟨c, fr :: rest⟩ failed ref)
    (hb : c'.builds = c.builds) : b.MayHold ⟨c', fr.note change :: rest⟩ failed ref := by
  refine hm.imp_right (And.imp_right fun hm => hm.imp_right fun hm => ?_)
  rcases hm with ⟨b', hb', hid⟩ | ⟨fr', hfr', hf, hd, hid⟩
  · exact .inl ⟨b', hb ▸ hb', hid⟩
  have hparsed : c'.parsed = c.parsed := congrArg (List.map Build.file) hb
  rcases List.mem_cons.mp hfr' with rfl | hfr'
  · exact .inr ⟨_, List.mem_cons_self, hf, hparsed ▸ hd, List.mem_cons_of_mem _ hid⟩
  · exact .inr ⟨fr', List.mem_cons_of_mem _ hfr', hf, hparsed ▸ hd, hid⟩

theorem Build.MayHold.step {b : Build} {ref : Reference} (hm : b.MayHold p failed ref)
    (h : Step [] p q) : b.MayHold q failed ref := by
  cases h with
  | insert record backed => exact hm.note rfl
  | modify f own found backed => exact hm
  | register free own unlisted => exact hm.note rfl
  | begin source imports unparsed idle =>
    refine hm.imp_right (And.imp_right (Or.imp_right (Or.imp_right ?_)))
    exact fun ⟨fr', hfr', hheld⟩ => ⟨fr', List.mem_cons_of_mem _ hfr', hheld⟩
  | @finish c fr rest complete =>
    refine hm.imp_right (And.imp_right (Or.imp_right fun hm => ?_))
    rcases hm with ⟨b', hb', hid⟩ | ⟨fr', hfr', hf, hd, hid⟩
    · exact .inl ⟨b', List.mem_append_left _ hb', hid⟩
    rcases List.mem_cons.mp hfr' with rfl | hfr'
    · exact .inl ⟨_, List.mem_append_right _ (List.mem_singleton_self _), hid⟩
    · exact .inr ⟨fr', hfr', hf, mem_drop_conclude hd, hid⟩

/-- The handles of a build that fails are lost to those that ended within it. -/
theorem Build.MayHold.abandon {b : Build} {ref : Reference} {c : Catalog} {fr : Frame}
    {rest : List Frame} (hm : b.MayHold ⟨c, fr :: rest⟩ failed ref) :
    b.MayHold ⟨c.rollback fr.journal, rest⟩ (fr.build c rest :: failed) ref := by
  refine hm.imp_right (And.imp_right fun hm => ?_)
  rcases hm with ⟨o, ho, hout⟩ | ⟨b', hb', hid⟩ | ⟨fr', hfr', hf, hd, hid⟩
  · exact .inl ⟨o, List.mem_cons_of_mem _ ho, hout⟩
  · exact .inr (.inl ⟨b', by rwa [Catalog.builds_rollback], hid⟩)
  rcases List.mem_cons.mp hfr' with rfl | hfr'
  · exact .inl ⟨_, List.mem_cons_self, ⟨hf, hd⟩, hid⟩
  · exact .inr (.inr ⟨fr', hfr', hf, by rwa [Catalog.parsed, Catalog.builds_rollback], hid⟩)

theorem Move.start_le (h : Move [] p q)
    (hs : ∀ fr ∈ p.frames, fr.start ≤ p.catalog.parsed.length) :
    ∀ fr ∈ q.frames, fr.start ≤ q.catalog.parsed.length := by
  cases h with
  | step h =>
    cases h with
    | insert record backed => exact List.forall_mem_cons.mpr (List.forall_mem_cons.mp hs)
    | modify f own found backed => exact hs
    | register free own unlisted => exact List.forall_mem_cons.mpr (List.forall_mem_cons.mp hs)
    | begin source imports unparsed idle => simpa [Catalog.parsed] using hs
    | @finish c fr rest complete =>
      intro fr' hfr'
      have hle := hs fr' (by simp [hfr'])
      simp only [Catalog.parsed, Catalog.conclude, List.length_map, List.length_append] at hle ⊢
      omega
  | @abandon c fr rest =>
    intro fr' hfr'
    simpa [Catalog.parsed, Catalog.builds_rollback] using hs fr' (by simp [hfr'])

theorem Steps.start_le (h : Steps [] p q)
    (hs : ∀ fr ∈ p.frames, fr.start ≤ p.catalog.parsed.length) :
    ∀ fr ∈ q.frames, fr.start ≤ q.catalog.parsed.length := by
  induction h with
  | refl => exact hs
  | tail _ hstep ih => exact Move.start_le (.step hstep) ih

/-- A build that ends does so within all those around it. -/
theorem mem_drop_start_of_finish {c : Catalog} {fr fr' : Frame} {rest : List Frame}
    (hle : fr'.start ≤ c.parsed.length) :
    fr.file ∈ (c.conclude (fr.build c rest)).parsed.drop fr'.start := by
  have hlength : fr'.start ≤ (c.builds.map Build.file).length := hle
  simp only [Catalog.parsed, Catalog.conclude, List.map_append,
    List.drop_append_of_le_length hlength]
  exact List.mem_append_right _ (by simp [Frame.build])

/-- A build that ends holds handles of its own, of parsed files, and of the builds around it. -/
theorem mayHold_of_finish {c : Catalog} {fr : Frame} {rest : List Frame} {ref : Reference}
    (hstart : ∀ fr' ∈ rest, fr'.start ≤ c.parsed.length) (h : fr.MayHold c rest ref) :
    (fr.build c rest).MayHold ⟨c.conclude (fr.build c rest), rest⟩ failed ref := by
  rcases h with h | ⟨hshared, o, ho, hid⟩
  · exact .inl h
  refine .inr ⟨hshared, .inr ?_⟩
  rcases List.mem_append.mp ho with ho | ho
  · obtain ⟨fr', hfr', rfl⟩ := List.mem_map.mp ho
    exact .inr ⟨fr', hfr', List.mem_map_of_mem hfr',
      mem_drop_start_of_finish (hstart fr' hfr'), hid⟩
  · obtain ⟨b', hb', rfl⟩ := List.mem_map.mp ho
    exact .inl ⟨b', List.mem_append_left _ hb', hid⟩

theorem Step.held (h : Step [] p q) (hp : p.Sound []) (hl : p.Linked failed) :
    ∀ b ∈ q.catalog.builds, ∀ {t : Table} (id : Id t) (r : Record t),
      Change.inserted t id ∈ b.journal → q.catalog.get? id = some r →
      ∀ ref ∈ references t r, b.MayHold q failed ref := by
  have old : ∀ b ∈ p.catalog.builds, ∀ {t : Table} (id : Id t) (r : Record t),
      Change.inserted t id ∈ b.journal → q.catalog.get? id = some r →
      ∀ ref ∈ references t r, b.MayHold q failed ref := by
    intro b hb t id r hid hget ref href
    rw [Move.get?_of_owned (.step h) hp (owner_mem_owners hb _) hid] at hget
    exact (hl.held b hb id r hid hget ref href).step h
  intro b hb
  cases h with
  | @finish c fr rest complete =>
    rcases List.mem_append.mp hb with hb | hb
    · exact old b hb
    · intro t id r hid hget ref href
      rw [List.append_nil] at hb
      cases List.mem_singleton.mp hb
      have hout := hl.outwards.1 id r hid hget ref href
      have hstart := fun fr' hfr' => hl.start_le fr' (List.mem_cons_of_mem fr hfr')
      have hfinish : (fr.build c rest).MayHold ⟨c.conclude (fr.build c rest), rest⟩ failed ref :=
        mayHold_of_finish hstart hout
      simpa using hfinish
  | insert record backed => exact old b hb
  | modify f own found backed => exact old b hb
  | register free own unlisted => exact old b hb
  | begin source imports unparsed idle => exact old b hb

/-- While no build fails, what surrounds a parsed file goes on surrounding it. -/
theorem Step.surrounds (h : Step [] p q) {b : Build} {file : String} (hs : p.Surrounds file b) :
    q.Surrounds file b := by
  cases h with
  | @insert c fr rest t record backed => exact surrounds_note_iff.mpr hs
  | modify f own found backed => exact hs
  | @register c fr rest h name id free own unlisted => exact surrounds_note_iff.mpr hs
  | begin source imports unparsed idle =>
    rcases hs with ⟨fr', hfr', hf, hd⟩ | hs
    · exact .inl ⟨fr', List.mem_cons_of_mem _ hfr', hf, hd⟩
    · exact .inr hs
  | @finish c fr rest complete =>
    rcases hs with ⟨fr', hfr', hf, hd⟩ | ⟨b', hb', hf, hd⟩
    · rcases List.mem_cons.mp hfr' with rfl | hfr'
      · exact .inr ⟨_, List.mem_append_right _ (List.mem_singleton_self _), hf, hd⟩
      · exact .inl ⟨fr', hfr', hf, mem_drop_conclude hd⟩
    · exact .inr ⟨b', List.mem_append_left _ hb', hf, hd⟩

theorem Step.surrounds_new (h : Step [] p q)
    (hstart : ∀ fr ∈ p.frames, fr.start ≤ p.catalog.parsed.length) {b : Build}
    (hb : b ∈ q.catalog.builds) :
    b ∈ p.catalog.builds ∨ ∀ file ∈ b.outer, q.Surrounds file b := by
  cases h with
  | @finish c fr rest complete =>
    rcases List.mem_append.mp hb with hb | hb
    · exact .inl hb
    · cases List.mem_singleton.mp hb
      refine .inr fun file hfile => ?_
      obtain ⟨fr', hfr', rfl⟩ := List.mem_map.mp hfile
      rw [List.append_nil] at hfr' ⊢
      exact .inl ⟨fr', hfr', rfl,
        mem_drop_start_of_finish (hstart fr' (List.mem_cons_of_mem fr hfr'))⟩
  | insert record backed => exact .inl hb
  | modify f own found backed => exact .inl hb
  | register free own unlisted => exact .inl hb
  | begin source imports unparsed idle => exact .inl hb

/-- What a run without failures adds is not forsaken. -/
theorem Steps.surrounds_new (h : Steps [] p q)
    (hstart : ∀ fr ∈ p.frames, fr.start ≤ p.catalog.parsed.length) {b : Build}
    (hb : b ∈ q.catalog.builds) :
    b ∈ p.catalog.builds ∨ ∀ file ∈ b.outer, q.Surrounds file b := by
  induction h with
  | refl => exact .inl hb
  | @tail q q' hsteps hstep ih =>
    rcases hstep.surrounds_new (Steps.start_le hsteps hstart) hb with hold | hnew
    · exact (ih hold).imp_right fun hall file hfile => hstep.surrounds (hall file hfile)
    · exact .inr hnew

theorem Step.linked (h : Step [] p q) (hp : p.Sound []) (hl : p.Linked failed) :
    q.Linked failed where
  start_le := Move.start_le (.step h) hl.start_le
  outwards := Move.outwards (.step h) hp hl.outwards
  around b hb := by
    rcases h.surrounds_new hl.start_le hb with hold | hnew
    · exact fun file hfile => (hl.around b hold file hfile).imp_left h.surrounds
    · exact fun file hfile => .inl (hnew file hfile)
  inner_subset o ho :=
    List.Subset.trans (hl.inner_subset o ho) (List.map_subset _ (Move.builds_subset (.step h)))
  gone o ho b hin hs :=
    hl.gone o ho b hin (Move.surrounds_of (.step h) hp (hl.inner_subset o ho hin) hs)
  held := h.held hp hl

theorem linked_abandon {c : Catalog} {fr : Frame} {rest : List Frame}
    (hp : Progress.Sound [] ⟨c, fr :: rest⟩) (hl : Progress.Linked ⟨c, fr :: rest⟩ failed) :
    Progress.Linked ⟨c.rollback fr.journal, rest⟩ (fr.build c rest :: failed) := by
  have hm : Move [] ⟨c, fr :: rest⟩ ⟨c.rollback fr.journal, rest⟩ := .abandon
  have hbuilds : (c.rollback fr.journal).builds = c.builds := Catalog.builds_rollback c fr.journal
  refine ⟨hm.start_le hl.start_le, hm.outwards hp hl.outwards, fun b hb file hfile => ?_, ?_, ?_,
    fun b hb t id r hid hget ref href => ?_⟩
  · rw [hbuilds] at hb
    rcases hl.around b hb file hfile with (⟨fr', hfr', hf, hd⟩ | ⟨b', hb', hin⟩) | ⟨o, ho, hin⟩
    · rcases List.mem_cons.mp hfr' with rfl | hfr'
      · exact .inr ⟨_, List.mem_cons_self, hf, hd⟩
      · exact .inl (.inl ⟨fr', hfr', hf, by rwa [Catalog.parsed, hbuilds]⟩)
    · exact .inl (.inr ⟨b', by rwa [hbuilds], hin⟩)
    · exact .inr ⟨o, List.mem_cons_of_mem _ ho, hin⟩
  · rw [Catalog.parsed, hbuilds]
    exact List.forall_mem_cons.mpr ⟨List.drop_subset _ _, hl.inner_subset⟩
  · refine List.forall_mem_cons.mpr ⟨fun b _ => not_surrounds_abandoned hp b,
      fun o ho b hin hs => ?_⟩
    exact hl.gone o ho b hin (hm.surrounds_of hp (hl.inner_subset o ho hin) hs)
  · rw [hbuilds] at hb
    rw [hm.get?_of_owned hp (owner_mem_owners hb _) hid] at hget
    exact (hl.held b hb id r hid hget ref href).abandon

theorem Course.moves (h : Course p failed q) : Moves [] p q := by
  induction h with
  | refl => exact .refl
  | step _ hs ih => exact ih.tail (.step hs)
  | abandon _ ih => exact ih.tail .abandon

/-- In every run it is settled which builds fail. -/
theorem Moves.exists_course (h : Moves [] p q) : ∃ failed, Course p failed q := by
  induction h with
  | refl => exact ⟨[], .refl p⟩
  | tail _ hm ih =>
    obtain ⟨failed, hcourse⟩ := ih
    cases hm with
    | step hs => exact ⟨failed, hcourse.step hs⟩
    | abandon => exact ⟨_, hcourse.abandon⟩

theorem Course.linked (h : Course p failed q) (hp : p.Sound []) (hl : p.Linked []) :
    q.Linked failed := by
  induction h with
  | refl => exact hl
  | step hc hs ih => exact hs.linked (Moves.sound hc.moves hp) ih
  | abandon hc ih => exact linked_abandon (Moves.sound hc.moves hp) ih

/-- A parsed file is forsaken exactly if a build that was around it failed. -/
theorem Progress.Linked.forsaken_iff (hl : p.Linked failed) {b : Build}
    (hb : b ∈ p.catalog.builds) : p.Forsaken b ↔ ∃ o ∈ failed, o.IsAround b := by
  constructor
  · rintro ⟨file, hfile, hs⟩
    obtain ⟨o, ho, rfl, hin⟩ := (hl.around b hb file hfile).resolve_left hs
    exact ⟨o, ho, hfile, hin⟩
  · rintro ⟨o, ho, hfile, hin⟩
    exact ⟨o.file, hfile, hl.gone o ho b hin⟩

end

end InterfaceCatalog
