import InterfaceCatalog.Catalog.Load
import InterfaceCatalog.Proofs.Catalog.Naming
import Mathlib.Logic.Relation

namespace InterfaceCatalog

/-- A build under way. -/
structure Frame where
  file : String
  source : FileSource
  imports : List String
  /-- How many files were parsed when it began. -/
  start : Nat
  journal : List Change

namespace Frame

def owner (fr : Frame) : Owner :=
  ⟨fr.file, fr.journal⟩

def note (fr : Frame) (change : Change) : Frame :=
  { fr with journal := change :: fr.journal }

def build (fr : Frame) (c : Catalog) (around : List Frame) : Build where
  file := fr.file
  source := fr.source
  imports := fr.imports
  outer := around.map file
  inner := c.parsed.drop fr.start
  journal := fr.journal

/-- What a build has reached when it ends: its imports are parsed or go on around it, the class that
it declares has its parents, and it has entered the names that it declares and no others. -/
structure Complete (fr : Frame) (c : Catalog) (around : List Frame) : Prop where
  imports_length : fr.imports.length = fr.source.imports.length
  imported : ∀ file ∈ fr.imports, file ∈ c.parsed ∨ file = fr.file ∨ file ∈ around.map Frame.file
  parents : ∀ source ∈ fr.source.declaredClass, ∃ e r,
    (c.registry.index .classes).find? source.name = some e ∧ e.file = fr.file ∧
      Change.inserted .classes e.id ∈ fr.journal ∧ c.get? e.id = some r ∧
      r.fullName = source.name ∧ r.inherits.length = source.inherits.length
  declares : ∀ entry ∈ fr.source.names, c.Declares fr.owner entry.1 entry.2
  names : ∀ h name, Change.registered h name ∈ fr.journal →
    Change.registered h name ∈ fr.source.changes

end Frame

def Catalog.conclude (c : Catalog) (b : Build) : Catalog :=
  { c with builds := c.builds ++ [b] }

/-- A catalog with the builds under way in it, innermost first. -/
structure Progress where
  catalog : Catalog
  frames : List Frame

/-- One step of loading, while the builds of `base` stand still. -/
inductive Step (base : List Frame) : Progress → Progress → Prop
  | insert {c : Catalog} {fr : Frame} {rest : List Frame} {t : Table} (record : Record t)
      (backed : AllBacked c fr.journal record) :
      Step base ⟨c, fr :: rest⟩ ⟨c.insert record, fr.note (.inserted t (c.next t)) :: rest⟩
  | modify {c : Catalog} {fr : Frame} {rest : List Frame} {t : Table} {id : Id t}
      {record : Record t} (f : Record t → Record t) (own : Change.inserted t id ∈ fr.journal)
      (found : c.get? id = some record)
      (backed : NewlyBacked c fr.journal record (f record)) :
      Step base ⟨c, fr :: rest⟩ ⟨c.modify id f, fr :: rest⟩
  | register {c : Catalog} {fr : Frame} {rest : List Frame} {h : Heading} {name : String}
      {id : Id h.table} (free : (c.registry.index h).find? name = none)
      (own : Change.inserted h.table id ∈ fr.journal) (unlisted : c.Unlisted id) :
      Step base ⟨c, fr :: rest⟩
        ⟨c.enter h ⟨name, fr.file, id⟩, fr.note (.registered h name) :: rest⟩
  | begin {c : Catalog} {frames : List Frame} {file : String} (source : FileSource)
      (imports : List String) (unparsed : file ∉ c.parsed)
      (idle : file ∉ (frames ++ base).map Frame.file) :
      Step base ⟨c, frames⟩ ⟨c, ⟨file, source, imports, c.builds.length, []⟩ :: frames⟩
  | finish {c : Catalog} {fr : Frame} {rest : List Frame}
      (complete : fr.Complete c (rest ++ base)) :
      Step base ⟨c, fr :: rest⟩ ⟨c.conclude (fr.build c (rest ++ base)), rest⟩

/-- A step, or the failure of the innermost build. -/
inductive Move (base : List Frame) : Progress → Progress → Prop
  | step {p q : Progress} (h : Step base p q) : Move base p q
  | abandon {c : Catalog} {fr : Frame} {rest : List Frame} :
      Move base ⟨c, fr :: rest⟩ ⟨c.rollback fr.journal, rest⟩

abbrev Steps (base : List Frame) : Progress → Progress → Prop :=
  Relation.ReflTransGen (Step base)

abbrev Moves (base : List Frame) : Progress → Progress → Prop :=
  Relation.ReflTransGen (Move base)

theorem Steps.moves {base : List Frame} {p q : Progress} (h : Steps base p q) : Moves base p q := by
  induction h with
  | refl => exact .refl
  | tail _ hs ih => exact ih.tail (.step hs)

/-- A step does not depend on where the builds that stand still are kept. -/
theorem Step.lift {base : List Frame} {fr : Frame} {p q : Progress} (h : Step (fr :: base) p q) :
    Step base ⟨p.catalog, p.frames ++ [fr]⟩ ⟨q.catalog, q.frames ++ [fr]⟩ := by
  have around : ∀ rest : List Frame, rest ++ fr :: base = rest ++ [fr] ++ base := by simp
  cases h with
  | insert record backed => exact .insert record backed
  | modify f own found backed => exact .modify f own found backed
  | register free own unlisted => exact .register free own unlisted
  | begin source imports unparsed idle => exact .begin source imports unparsed (around _ ▸ idle)
  | finish complete =>
    rw [around] at complete ⊢
    exact .finish complete

theorem Move.lift {base : List Frame} {fr : Frame} {p q : Progress} (h : Move (fr :: base) p q) :
    Move base ⟨p.catalog, p.frames ++ [fr]⟩ ⟨q.catalog, q.frames ++ [fr]⟩ := by
  cases h with
  | step h => exact .step h.lift
  | abandon => exact .abandon

theorem Steps.lift {base : List Frame} {fr : Frame} {p q : Progress} (h : Steps (fr :: base) p q) :
    Steps base ⟨p.catalog, p.frames ++ [fr]⟩ ⟨q.catalog, q.frames ++ [fr]⟩ := by
  induction h with
  | refl => exact .refl
  | tail _ hs ih => exact ih.tail hs.lift

theorem Moves.lift {base : List Frame} {fr : Frame} {p q : Progress} (h : Moves (fr :: base) p q) :
    Moves base ⟨p.catalog, p.frames ++ [fr]⟩ ⟨q.catalog, q.frames ++ [fr]⟩ := by
  induction h with
  | refl => exact .refl
  | tail _ hm ih => exact ih.tail hm.lift

/-- The owners in a catalog with builds under way. -/
def Catalog.owners (c : Catalog) (frames : List Frame) : List Owner :=
  frames.map Frame.owner ++ c.builds.map Build.owner

/-- What a build may store is there. -/
theorem Accounted.live_of_backed {c : Catalog} {o : Owner} {owners : List Owner}
    (ha : Accounted c (o :: owners)) {t : Table} {id : Id t} (h : Backed c o.journal id) :
    c.Live id :=
  h.elim (ha.live List.mem_cons_self) And.right

theorem owner_mem_owners {c : Catalog} {b : Build} (hb : b ∈ c.builds) (frames : List Frame) :
    b.owner ∈ c.owners frames :=
  List.mem_append_right _ (List.mem_map_of_mem hb)

/-- The account of a state, the builds that stand still included. -/
def Progress.Sound (base : List Frame) (p : Progress) : Prop :=
  Accounted p.catalog (p.catalog.owners (p.frames ++ base))

theorem files_owners (c : Catalog) (frames : List Frame) :
    (c.owners frames).map Owner.file = frames.map Frame.file ++ c.parsed := by
  simp [Catalog.owners, Catalog.parsed, Frame.owner, Build.owner, Function.comp_def]

theorem Step.sound {base : List Frame} {p q : Progress} (h : Step base p q) (hp : p.Sound base) :
    q.Sound base := by
  cases h with
  | insert record backed => exact Accounted.insert hp record
  | @modify c fr rest t id record f own found backed => exact Accounted.modify hp id f
  | register free own unlisted => exact Accounted.enter hp free own unlisted
  | begin source imports unparsed idle =>
    apply Accounted.begin hp
    rw [files_owners]
    simp only [List.mem_append, not_or]
    exact ⟨idle, unparsed⟩
  | @finish c fr rest complete =>
    refine Accounted.congr (Accounted.perm hp ?_) rfl rfl
    have hsplit : (c.conclude (fr.build c (rest ++ base))).owners (rest ++ base) =
        c.owners (rest ++ base) ++ [fr.owner] := by
      simp [Catalog.owners, Catalog.conclude, Build.owner, Frame.build, Frame.owner]
    rw [hsplit]
    exact (List.perm_append_singleton _ _).symm

theorem Move.sound {base : List Frame} {p q : Progress} (h : Move base p q) (hp : p.Sound base) :
    q.Sound base := by
  cases h with
  | step h => exact h.sound hp
  | @abandon c fr rest =>
    have hr := Accounted.rollback (o := fr.owner) hp
    simpa [Progress.Sound, Catalog.owners, Catalog.builds_rollback, Frame.owner] using hr

theorem Moves.sound {base : List Frame} {p q : Progress} (h : Moves base p q) (hp : p.Sound base) :
    q.Sound base := by
  induction h with
  | refl => exact hp
  | tail _ hm ih => exact hm.sound ih

end InterfaceCatalog
