import InterfaceCatalog.Proofs.Build.Accesses
import InterfaceCatalog.Proofs.Database.Termination

namespace InterfaceCatalog

namespace Database

/-- The records that are read or changed by their handles while a file is loaded, by its own build
and by those of all other files that are built for it. -/
def accesses (db : Database) (disk : Disk) (name : String) : List Access :=
  (db.sources disk).accesses [] name db.catalog

/-- Every record that is read or changed by its handle during a load is live at that moment, whether
the load fails or not. So no load fails for want of a record. -/
theorem Resting.accesses_live {db : Database} (h : db.Resting) (disk : Disk) (name : String) :
    (∀ a ∈ db.accesses disk name, a.live) ∧ ∀ e, (db.load disk name).1 = some e → ¬ e.IsStale := by
  refine ⟨(db.sources disk).live_of_accesses [] name db.catalog h.settled, fun e he => ?_⟩
  have hout := (db.sources disk).parseFile_outcome [] name db.catalog h.settled
  rw [List.map_nil] at hout
  unfold Database.load at he
  cases hr : (db.sources disk).parseFile [] name db.catalog with
  | ok u c =>
    rw [hr] at he
    cases he
  | error e' c =>
    rw [hr] at hout he
    cases he
    exact hout.2.2.2.2.1

/-- Reads a class with a parent that implements a function of its own, and one that
it does not have. -/
def lackingReader : SourceReader := fun _ text =>
  if text = "a" then
    .ok { declaredClass := some {
      name := "A", inherits := ["B"], methods := [{ name := "m" }]
      implements := [{ name := ".m" }, { name := ".n" }] } }
  else .ok { declaredClass := some { name := "B", methods := [{ name := "m" }] } }

def lackingDatabase : Database :=
  { cyclicDatabase with reader := lackingReader }

/-- The first load stores both classes and undoes the one that fails. -/
def lackingFailed : Database :=
  (lackingDatabase.load cyclicDisk "a.eo").2

/-- The first load changes the records of both files. The second one finds the parent parsed and
uses the slots that the first one has freed. Both fail because of what the file says. -/
theorem accesses_live_lacking :
    lackingFailed.Resting ∧ lackingFailed.catalog.parsed = ["b.eo"] ∧
      (lackingDatabase.accesses cyclicDisk "a.eo").length = 14 ∧
      (lackingFailed.accesses cyclicDisk "a.eo").map (fun a => (a.table, a.handle)) =
        [(.classes, ⟨0, 1⟩), (.functions, ⟨1, 1⟩), (.classes, ⟨0, 1⟩), (.classes, ⟨0, 1⟩),
          (.classes, ⟨0, 1⟩), (.functions, ⟨1, 1⟩), (.classes, ⟨0, 1⟩), (.functions, ⟨1, 1⟩),
          (.classes, ⟨0, 1⟩)] ∧
      (∀ a ∈ lackingDatabase.accesses cyclicDisk "a.eo" ++ lackingFailed.accesses cyclicDisk "a.eo",
        a.live) ∧
      (lackingFailed.load cyclicDisk "a.eo").1 = some (.unknownFunction "A" "n") ∧
      ¬ (LoadError.unknownFunction "A" "n").IsStale := by
  have hscanned : lackingDatabase.Resting := .reachable (scanned_reachable lackingReader)
  have hresting : lackingFailed.Resting := .load cyclicDisk "a.eo" hscanned
  have hfails : (lackingFailed.load cyclicDisk "a.eo").1 = some (.unknownFunction "A" "n") := by
    decide +kernel
  obtain ⟨hfirst, -⟩ := hscanned.accesses_live cyclicDisk "a.eo"
  obtain ⟨hsecond, herror⟩ := hresting.accesses_live cyclicDisk "a.eo"
  exact ⟨hresting, by decide +kernel, by decide +kernel, by decide +kernel,
    List.forall_mem_append.mpr ⟨hfirst, hsecond⟩, hfails, herror _ hfails⟩

end Database

end InterfaceCatalog
