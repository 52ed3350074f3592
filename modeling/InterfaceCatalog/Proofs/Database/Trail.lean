import InterfaceCatalog.Proofs.Build.Trail
import InterfaceCatalog.Proofs.Database.Family
import InterfaceCatalog.Proofs.Database.Termination

namespace InterfaceCatalog

namespace Database

variable {db db' db'' : Database} {disk : Disk} {nameOrPath name : String} {e : LoadError}

/-- A known file is meant by its name where no path is. -/
theorem nameFile_of_scanned (hpath : disk.isFile (.ofString name) = false)
    (hknown : db.files.scanned? name = some name) : db.nameFile disk name = (.ok name, db) := by
  simp [nameFile, hpath, hknown]

theorem contains_of_nameFile (h : db.nameFile disk nameOrPath = (.ok name, db')) :
    db'.files.contains name := by
  unfold nameFile at h
  dsimp only at h
  split at h
  · split at h
    · cases h
    split at h
    · cases h
    · cases h
    · next hregister =>
      cases h
      exact FileTable.register_contains hregister
  split at h
  · cases h
  · next hknown =>
    cases h
    obtain ⟨rfl, hcontains⟩ := FileTable.scanned?_eq_some hknown
    exact hcontains

theorem Resting.nameFile (h : db.Resting) (disk : Disk) (nameOrPath : String) :
    (db.nameFile disk nameOrPath).2.Resting :=
  nameFile_induction (P := Resting) (fun _ h => .enter _ h) disk nameOrPath h

/-- A file that is known fails to be parsed only as its load does. -/
theorem Resting.load_error_of_parse (h : db'.Resting)
    (hname : db.nameFile disk nameOrPath = (.ok name, db'))
    (hparse : db.parse disk nameOrPath = (.error e, db'')) :
    db'.load disk name = (some e, db'') := by
  have hparsed := (load_outcome db' disk name h.settled).2.2.2.mp
  unfold parse at hparse
  rw [hname] at hparse
  dsimp only at hparse
  cases hload : db'.load disk name with
  | mk fault loaded =>
    rw [hload] at hparse hparsed
    cases fault with
    | some e' =>
      cases hparse
      rfl
    | none =>
      have hdone : loaded.catalog.isParsed name = true := by
        simpa [Catalog.isParsed] using hparsed rfl
      simp only [hdone, if_true] at hparse
      cases hparse

/-- The error of a file that cannot be parsed. It is one that is not about a dependency, in as many
errors about dependencies as there are files named. These are the files that were under way when the
file was entered that failed by itself, and that was once only; each of them had asked for the next
one, none of them is named twice, and the first one is the file that was to be parsed. The innermost
error is that of the file that failed by itself, which could not be read or, with all that it asks
for there, not be built. -/
theorem Resting.error_trail (h : db.Resting) (hname : db.nameFile disk nameOrPath = (.ok name, db'))
    (hparse : db.parse disk nameOrPath = (.error e, db'')) :
    e = e.trail.foldr .dependency e.cause ∧ (∀ file source, e.cause ≠ .dependency file source) ∧
      ∃ calls last, (db'.sources disk).Traces ⟨[], name, db'.catalog⟩ e calls last ∧
        (e.trail ++ [last.file]).head? = some name ∧ (e.trail ++ [last.file]).Nodup ∧
        ∃ past, past ++ [.read last.file] <+: db'.events disk name ∧
          (db'.books past).underway = e.trail.reverse ∧
          ∀ past', past' ++ [.read last.file] <+: db'.events disk name → past' = past := by
  have hresting : db'.Resting := by
    have hnamed := h.nameFile disk nameOrPath
    rwa [hname] at hnamed
  have hload := hresting.load_error_of_parse hname hparse
  unfold Database.load at hload
  cases hresult : (db'.sources disk).parseFile [] name db'.catalog with
  | ok _ c =>
    rw [hresult] at hload
    cases hload
  | error e' c =>
    rw [hresult] at hload
    cases hload
    have hfirst : Books.Agrees { parsed := db'.catalog.parsed } db'.catalog [] := ⟨rfl, rfl⟩
    obtain ⟨calls, last, htraces, past, hpast, hunderway⟩ :=
      (db'.sources disk).exists_traces [] hresting.settled (contains_of_nameFile hname) hfirst
        (Books.unfailed_new _) hresult
    have hreverse : (db'.books past).underway = e.trail.reverse :=
      hunderway.trans (htraces.loading.trans (List.append_nil _))
    -- the books are in order when the last file is entered
    obtain ⟨haccepts, -⟩ := hresting.books_agree disk name
    have hbefore : past <+: db'.events disk name := (List.prefix_append past _).trans hpast
    have horder : (db'.books past).InOrder db'.files.names :=
      (Books.inOrder_new _ _).noteAll (haccepts.of_prefix hbefore)
    obtain ⟨-, -, hidle, -⟩ : (db'.books past).Admits db'.files.names (.read last.file) :=
      haccepts.admits_of_prefix hpast
    refine ⟨e.eq_foldr_dependency, e.cause_ne_dependency, calls, last, htraces, ?_, ?_, past,
      hpast, hreverse, fun past' hpast' => haccepts.entered_once hpast' hpast⟩
    · rw [← htraces.files, ← List.map_singleton, ← List.map_append, List.head?_map, htraces.head]
      rfl
    · obtain ⟨hnodup, -⟩ := horder.underway
      rw [hreverse, List.nodup_reverse] at hnodup
      rw [hreverse, List.mem_reverse] at hidle
      exact List.nodup_append_comm.mp (hnodup.cons hidle)

/-- The files are found by their names only. -/
def distantDisk : Disk :=
  { cyclicDisk with current := [encodeUtf8 "c"] }

/-- The second file fails while the first one, by which it was asked for, is under way. -/
theorem error_trail_early :
    earlyDatabase.Resting ∧ earlyDatabase.nameFile distantDisk "a.eo" =
      (.ok "a.eo", earlyDatabase) ∧ (earlyDatabase.parse distantDisk "a.eo").1 =
        .error (.dependency "a.eo" (.unresolvedClass "A")) ∧
      ∃ first last, first.file = "a.eo" ∧ last.file = "b.eo" ∧ last.loading = ["a.eo"] ∧
        (earlyDatabase.sources distantDisk).Asks first last ∧
        (earlyDatabase.sources distantDisk).FailsAlone last (.unresolvedClass "A") := by
  have hresting : earlyDatabase.Resting := .reachable (scanned_reachable _)
  have hname : earlyDatabase.nameFile distantDisk "a.eo" = (.ok "a.eo", earlyDatabase) :=
    nameFile_of_scanned (by decide +kernel) rfl
  have hparse : earlyDatabase.parse distantDisk "a.eo" =
      (.error (.dependency "a.eo" (.unresolvedClass "A")),
        (earlyDatabase.parse distantDisk "a.eo").2) :=
    Prod.ext (by decide +kernel) rfl
  obtain ⟨-, -, calls, last, htraces, -, hnodup, past, hpast, -⟩ :=
    hresting.error_trail hname hparse
  have hevents : earlyDatabase.events distantDisk "a.eo" =
      [.read "a.eo", .begun "a.eo", .read "b.eo", .begun "b.eo", .ended "b.eo" false,
        .ended "a.eo" false] := by
    decide +kernel
  obtain ⟨first, rfl, hfirst⟩ := List.map_eq_singleton_iff.mp htraces.files
  have hread : LoadEvent.read last.file ∈ earlyDatabase.events distantDisk "a.eo" :=
    hpast.subset (by simp)
  have hlast : last.file = "b.eo" := by
    have heither : last.file = "a.eo" ∨ last.file = "b.eo" := by simpa [hevents] using hread
    refine heither.resolve_left fun hfile => ?_
    simp [LoadError.trail, hfile] at hnodup
  exact ⟨hresting, hname, congrArg Prod.fst hparse, first, last, hfirst, hlast, htraces.loading,
    (List.isChain_cons_cons.mp htraces.asks).1, htraces.fails⟩

end Database

end InterfaceCatalog
