import InterfaceCatalog.Proofs.Build.Events
import InterfaceCatalog.Proofs.Database.Reachable

namespace InterfaceCatalog

namespace Database

/-- Nothing is being built: so it is between two requests, and between two loads of one request. -/
inductive Resting : Database → Prop
  | reachable {db : Database} (h : db.Reachable) : Resting db
  | enter {db : Database} (files : FileTable) (h : Resting db) : Resting { db with files }
  | load {db : Database} (disk : Disk) (name : String) (h : Resting db) :
      Resting (db.load disk name).2

theorem Resting.settled {db : Database} (h : db.Resting) : Settled db.catalog := by
  induction h with
  | reachable h => exact h.settled
  | enter files h ih => exact ih
  | load disk name h ih => exact load_settled disk name ih

/-- All that happens while a file is loaded. -/
def events (db : Database) (disk : Disk) (name : String) : List LoadEvent :=
  (db.sources disk).events [] name db.catalog

/-- The books of a load after some of its events. -/
def books (db : Database) (past : List LoadEvent) : Books :=
  Books.noteAll { parsed := db.catalog.parsed } past

theorem Resting.books_agree {db : Database} (h : db.Resting) (disk : Disk) (name : String) :
    Books.Accepts db.files.names { parsed := db.catalog.parsed } (db.events disk name) ∧
      (db.books (db.events disk name)).Agrees (db.load disk name).2.catalog [] := by
  have hrecorded :=
    (db.sources disk).recorded [] name db.catalog h.settled (b := { parsed := db.catalog.parsed })
    ⟨rfl, rfl⟩ (Books.unfailed_new _)
  obtain ⟨haccepts, hrest⟩ := hrecorded
  refine ⟨haccepts, ?_⟩
  rw [List.map_nil] at hrest
  unfold Database.load
  cases hr : (db.sources disk).parseFile [] name db.catalog with
  | ok u c =>
    rw [hr] at hrest
    exact hrest.1
  | error e c =>
    rw [hr] at hrest
    exact hrest

/-- Loading a file comes to an end, and each file is read and built at most once in it, even if it
fails. At any time the files under way are different known ones, and a file that is entered is
neither parsed nor under way. In the end nothing is under way, and a file that was loaded without
an error is parsed. -/
theorem Resting.load_terminates {db : Database} (h : db.Resting) (disk : Disk) (name : String) :
    (∀ past, past <+: db.events disk name →
      (db.books past).InOrder db.files.names ∧
      (db.books past).underway.length ≤ db.files.names.length ∧
      ∀ file, past ++ [.read file] <+: db.events disk name →
        file ∈ db.files.names ∧ file ∉ (db.books past).parsed ∧ file ∉ (db.books past).underway) ∧
    (db.events disk name).length ≤ 3 * db.files.names.length ∧
    (db.books (db.events disk name)).underway = [] ∧
    (db.books (db.events disk name)).parsed = (db.load disk name).2.catalog.parsed ∧
    ((db.load disk name).1 = none → name ∈ (db.load disk name).2.catalog.parsed) ∧
    ∀ nameOrPath file db', db.nameFile disk nameOrPath = (.ok file, db') →
      (db'.load disk file).1 = none →
      db.parse disk nameOrPath = (.ok file, (db'.load disk file).2) := by
  obtain ⟨haccepts, hagrees⟩ := h.books_agree disk name
  have hinitial := Books.inOrder_new db.files.names db.catalog.parsed
  refine ⟨fun past hpast => ?_, ?_, hagrees.underway, hagrees.parsed, ?_,
    fun nameOrPath file db' hname hload => ?_⟩
  · obtain ⟨rest, hrest⟩ := hpast
    have hpast : Books.Accepts db.files.names { parsed := db.catalog.parsed } past :=
      (Books.accepts_append.mp (hrest ▸ haccepts)).1
    have horder : (db.books past).InOrder db.files.names := hinitial.noteAll hpast
    refine ⟨horder, horder.underway.1.length_le_of_subset horder.underway.2, ?_⟩
    rintro file ⟨rest', hrest'⟩
    rw [← hrest', List.append_assoc, Books.accepts_append] at haccepts
    obtain ⟨-, ⟨hknown, hparsed, hidle, -⟩, -⟩ := haccepts
    exact ⟨hknown, hparsed, hidle⟩
  · have horder : (db.books (db.events disk name)).InOrder db.files.names :=
      hinitial.noteAll haccepts
    have hread := horder.read.1.length_le_of_subset horder.read.2
    have hbuilt := horder.built.1.length_le_of_subset horder.built.2
    have hlength : (db.events disk name).length + (db.books (db.events disk name)).underway.length =
        (db.books (db.events disk name)).read.length +
          2 * (db.books (db.events disk name)).built.length :=
      Books.length_add_underway haccepts
    rw [hagrees.underway, List.length_nil] at hlength
    omega
  · exact (load_outcome db disk name h.settled).2.2.2.mp
  · have hs : Settled db'.catalog := by
      have hcatalog := nameFile_catalog db disk nameOrPath
      rw [hname] at hcatalog
      exact hcatalog ▸ h.settled
    have hparsed := (load_outcome db' disk file hs).2.2.2.mp hload
    unfold parse
    rw [hname]
    dsimp only
    cases hr : db'.load disk file with
    | mk fault db'' =>
      rw [hr] at hload hparsed
      cases hload
      have hdone : db''.catalog.isParsed file = true := by simpa [Catalog.isParsed] using hparsed
      simp only [hdone, if_true]

/-- The second file is built while the first one is under way, which fails after that. -/
theorem load_terminates_cyclic :
    cyclicDatabase.Resting ∧
      cyclicDatabase.events cyclicDisk "a.eo" =
        [.read "a.eo", .begun "a.eo", .read "b.eo", .begun "b.eo", .ended "b.eo" true,
          .ended "a.eo" false] ∧
      (cyclicDatabase.books [.read "a.eo", .begun "a.eo", .read "b.eo",
        .begun "b.eo"]).underway.length ≤ 2 ∧
      (cyclicDatabase.load cyclicDisk "a.eo").2.catalog.parsed = ["b.eo"] := by
  have hevents : cyclicDatabase.events cyclicDisk "a.eo" =
      [.read "a.eo", .begun "a.eo", .read "b.eo", .begun "b.eo", .ended "b.eo" true,
        .ended "a.eo" false] := by
    decide +kernel
  have hresting : cyclicDatabase.Resting := .reachable cyclicDatabase_reachable
  obtain ⟨hpast, -, -, hparsed, -⟩ := hresting.load_terminates cyclicDisk "a.eo"
  rw [hevents] at hpast hparsed
  refine ⟨hresting, hevents, (hpast _ ⟨[.ended "b.eo" true, .ended "a.eo" false], rfl⟩).2.1, ?_⟩
  rw [← hparsed]
  rfl

end Database

end InterfaceCatalog
