import InterfaceCatalog.Proofs.Database.Namespace

namespace InterfaceCatalog

namespace Database

/-- A file is parsed after its own attempt exactly if the attempt does not fail. -/
theorem load_eq_none_iff {db : Database} (hs : Settled db.catalog) (disk : Disk) (name : String) :
    (db.load disk name).1 = none ↔ name ∈ (db.load disk name).2.catalog.parsed :=
  (load_outcome db disk name hs).2.2.2

theorem Leads.parsed_subset {c c' : Catalog} (h : Leads c c') (hs : Settled c) :
    c.parsed ⊆ c'.parsed :=
  have hextends := Moves.extends h hs
  hextends.parsed_prefix.subset

/-- What the attempts of a row of files come to. -/
def verdicts (disk : Disk) : Database → List String → List (String × Option LoadError)
  | _, [] => []
  | db, name :: names => (name, (db.load disk name).1) :: verdicts disk (db.load disk name).2 names

/-- The database after the attempts of a row of files. -/
def attempted (disk : Disk) (db : Database) (names : List String) : Database :=
  names.foldl (fun db name => (db.load disk name).2) db

variable {disk : Disk} {db : Database} {names : List String}

theorem map_fst_verdicts : (verdicts disk db names).map Prod.fst = names := by
  induction names generalizing db with
  | nil => rfl
  | cons name names ih => rw [verdicts, List.map_cons, ih]

theorem loadEach_eq : loadEach disk db names =
    ((verdicts disk db names).filterMap Prod.snd, attempted disk db names) := by
  induction names generalizing db with
  | nil => rfl
  | cons name names ih =>
    unfold loadEach verdicts attempted
    cases hl : db.load disk name with
    | mk result db' => cases result <;> simp [ih, attempted, hl]

theorem attempted_leads (hs : Settled db.catalog) :
    Leads db.catalog (attempted disk db names).catalog := by
  have h := loadEach_leads disk names db hs
  rwa [loadEach_eq] at h

theorem mem_verdicts {name : String} {result : Option LoadError}
    (h : (name, result) ∈ verdicts disk db names) : ∃ pre rest, names = pre ++ name :: rest ∧
      ((attempted disk db pre).load disk name).1 = result := by
  induction names generalizing db with
  | nil => simp [verdicts] at h
  | cons first names ih =>
    rcases List.mem_cons.mp h with h | h
    · cases h
      exact ⟨[], names, rfl, rfl⟩
    · obtain ⟨pre, rest, rfl, hresult⟩ := ih h
      exact ⟨first :: pre, rest, rfl, hresult⟩

theorem attempted_append (pre rest : List String) :
    attempted disk db (pre ++ rest) = attempted disk (attempted disk db pre) rest :=
  List.foldl_append

/-- A file that is parsed by a row of attempts is parsed by one of them. -/
theorem exists_attempt {name : String} (hbefore : name ∉ db.catalog.parsed)
    (hafter : name ∈ (attempted disk db names).catalog.parsed) : ∃ pre other rest,
      names = pre ++ other :: rest ∧ name ∉ (attempted disk db pre).catalog.parsed ∧
        name ∈ ((attempted disk db pre).load disk other).2.catalog.parsed := by
  induction names generalizing db with
  | nil => exact absurd hafter hbefore
  | cons other names ih =>
    by_cases hmid : name ∈ (db.load disk other).2.catalog.parsed
    · exact ⟨[], other, names, rfl, hbefore, hmid⟩
    · obtain ⟨pre, later, rest, rfl, hout, hin⟩ := ih hmid hafter
      exact ⟨other :: pre, later, rest, rfl, hout, hin⟩

/-- The files of a row whose own attempt fails and that are parsed in the end. -/
def recovered (disk : Disk) (db : Database) (names : List String) : List String :=
  ((verdicts disk db names).filter fun v =>
    v.2.isSome && (attempted disk db names).catalog.isParsed v.1).map Prod.fst

theorem parsed_of_verdict (hs : Settled db.catalog) {name : String}
    (h : (name, none) ∈ verdicts disk db names) :
    name ∈ (attempted disk db names).catalog.parsed := by
  obtain ⟨pre, rest, rfl, hresult⟩ := mem_verdicts h
  have hpre : Settled (attempted disk db pre).catalog := (attempted_leads hs).settled hs
  have hparsed := (load_eq_none_iff hpre disk name).mp hresult
  have hload := (load_leads (attempted disk db pre) disk name hpre).settled hpre
  rw [attempted_append]
  exact (attempted_leads hload).parsed_subset hload hparsed

/-- A failure is counted once: as that of a file that stays out, or of one that is parsed later. -/
theorem length_verdicts_errors (hs : Settled db.catalog) :
    ((verdicts disk db names).filterMap Prod.snd).length =
      (names.filter fun name => !(attempted disk db names).catalog.isParsed name).length +
        (recovered disk db names).length := by
  let parsed := (attempted disk db names).catalog.isParsed
  have hok : ∀ v ∈ verdicts disk db names, v.2 = none → parsed v.1 = true := by
    rintro ⟨name, result⟩ hv rfl
    simpa [parsed, Catalog.isParsed] using parsed_of_verdict hs hv
  have count : ∀ vs : List (String × Option LoadError), (∀ v ∈ vs, v.2 = none → parsed v.1 = true) →
      (vs.filterMap Prod.snd).length = ((vs.map Prod.fst).filter fun name => !parsed name).length +
        ((vs.filter fun v => v.2.isSome && parsed v.1).map Prod.fst).length := by
    intro vs hvs
    induction vs with
    | nil => rfl
    | cons v vs ih =>
      obtain ⟨name, result⟩ := v
      obtain ⟨hfirst, hrest⟩ := List.forall_mem_cons.mp hvs
      have hcount := ih hrest
      cases result with
      | none =>
        have hname : parsed name = true := hfirst rfl
        simpa [hname] using hcount
      | some e =>
        cases hname : parsed name <;> simp [hname] at hcount ⊢ <;> omega
  have hcount := count (verdicts disk db names) hok
  rwa [map_fst_verdicts] at hcount

theorem exists_later_attempt (hs : Settled db.catalog) {name : String}
    (h : name ∈ recovered disk db names) :
    ∃ pre mid other rest, names = pre ++ name :: mid ++ other :: rest ∧
      name ∉ (attempted disk db (pre ++ name :: mid)).catalog.parsed ∧
      name ∈ ((attempted disk db (pre ++ name :: mid)).load disk other).2.catalog.parsed := by
  obtain ⟨⟨name, result⟩, hv, rfl⟩ := List.mem_map.mp h
  obtain ⟨hv, hrecovered⟩ := List.mem_filter.mp hv
  simp only [Bool.and_eq_true, Catalog.isParsed, List.contains_iff_mem] at hrecovered
  obtain ⟨hfailed, hparsed⟩ := hrecovered
  obtain ⟨pre, rest, rfl, rfl⟩ := mem_verdicts hv
  have hpre : Settled (attempted disk db pre).catalog := (attempted_leads hs).settled hs
  have hout : name ∉ ((attempted disk db pre).load disk name).2.catalog.parsed := by
    rw [← load_eq_none_iff hpre]
    exact Option.isSome_iff_ne_none.mp hfailed
  rw [attempted_append] at hparsed
  obtain ⟨mid, other, last, rfl, hbefore, hafter⟩ := exists_attempt hout hparsed
  refine ⟨pre, mid, other, last, by simp, ?_, ?_⟩
  · rw [attempted_append]
    exact hbefore
  · rw [attempted_append]
    exact hafter

theorem Reachable.names_nodup (h : db.Reachable) : db.files.names.Nodup :=
  h.induction (P := fun db => db.files.names.Nodup)
    (fun _ _ => List.nodup_nil) FileTable.register_names_nodup
    fun disk name hn => (load_files _ disk name).symm ▸ hn

/-- The names that are listed for a kind are those of its files. -/
theorem Reachable.namesOf_eq (h : db.Reachable) (kind : FileKind) :
    db.files.namesOf kind = (db.files.ofKind kind).map ScannedFile.name :=
  h.induction (P := fun db => db.files.namesOf kind = (db.files.ofKind kind).map ScannedFile.name)
    (fun _ _ => by cases kind <;> rfl) FileTable.register_namesOf
    fun disk name hk => (load_files _ disk name).symm ▸ hk

/-- The number of errors of a bulk parse. Each scanned file of the kind is attempted once, in
the order of the scan, and its failure is reported. The files that are not parsed afterwards
are those whose own attempt failed, except for the recovered ones, which the attempt of a
later file has parsed. -/
theorem Reachable.parseAll_reports (h : db.Reachable) (disk : Disk) (kind : FileKind) :
    let names := (db.files.ofKind kind).map ScannedFile.name
    let (errors, db') := db.parseAll disk kind
    names.Nodup ∧ (verdicts disk db names).map Prod.fst = names ∧
      errors = (verdicts disk db names).filterMap Prod.snd ∧
      (∀ name, (name, none) ∈ verdicts disk db names → name ∈ db'.catalog.parsed) ∧
      errors.length = (names.filter fun name => !db'.catalog.isParsed name).length +
        (recovered disk db names).length ∧
      (∀ name ∈ recovered disk db names, ∃ pre mid other rest,
        names = pre ++ name :: mid ++ other :: rest ∧ other ≠ name ∧
        name ∉ (attempted disk db (pre ++ name :: mid)).catalog.parsed ∧
        name ∈ ((attempted disk db (pre ++ name :: mid)).load disk other).2.catalog.parsed) ∧
      (errors = [] ↔ (∀ name ∈ names, name ∈ db'.catalog.parsed) ∧
        recovered disk db names = []) := by
  intro names
  have hnodup : names.Nodup := h.names_nodup.sublist (List.filter_sublist.map _)
  have hcount := @length_verdicts_errors disk db names h.settled
  have heq : db.parseAll disk kind =
      ((verdicts disk db names).filterMap Prod.snd, attempted disk db names) := by
    rw [Database.parseAll, h.namesOf_eq]
    exact loadEach_eq
  rw [heq]
  refine ⟨hnodup, map_fst_verdicts, rfl, fun name => parsed_of_verdict h.settled, hcount,
    fun name hname => ?_, ?_⟩
  · obtain ⟨pre, mid, other, rest, hsplit, hbefore, hafter⟩ := exists_later_attempt h.settled hname
    refine ⟨pre, mid, other, rest, hsplit, ?_, hbefore, hafter⟩
    rintro rfl
    rw [hsplit] at hnodup
    exact (List.nodup_append.mp hnodup).2.2 _ (by simp) _ List.mem_cons_self rfl
  · rw [← List.length_eq_zero_iff, hcount, Nat.add_eq_zero_iff, List.length_eq_zero_iff,
      List.length_eq_zero_iff, List.filter_eq_nil_iff]
    simp [Catalog.isParsed]

/-- The first file needs a type of the second one, whose class needs that of the first. -/
def recoveringDatabase : Database :=
  { cyclicDatabase with
    reader := fun _ text =>
      if text = "a" then
        .ok {
          declaredClass := some { name := "A" }
          aliases := [{ name := "T", type := .named "S" ⟨false, false, false⟩ none [] }] }
      else
        .ok {
          declaredClass := some { name := "B", inherits := ["A"] }
          structs := [{ name := "S" }] } }

/-- One error is reported although both files are parsed. -/
theorem parseAll_recovering : recoveringDatabase.Reachable ∧
    (recoveringDatabase.files.ofKind .interface).map ScannedFile.name = ["a.eo", "b.eo"] ∧
    (recoveringDatabase.parseAll cyclicDisk .interface).1 = [.unresolvedType "S"] ∧
    ∀ name ∈ ["a.eo", "b.eo"],
      name ∈ (recoveringDatabase.parseAll cyclicDisk .interface).2.catalog.parsed :=
  ⟨scanned_reachable _, by decide, by decide +kernel, by decide +kernel⟩

/-- The first file is the one that is recovered. -/
theorem parseAll_reports_recovering :
    recovered cyclicDisk recoveringDatabase ["a.eo", "b.eo"] = ["a.eo"] ∧
      (recoveringDatabase.parseAll cyclicDisk .interface).1.length = 1 := by
  have hreachable : recoveringDatabase.Reachable := scanned_reachable _
  have hreports := hreachable.parseAll_reports cyclicDisk .interface
  have hnames : (recoveringDatabase.files.ofKind .interface).map ScannedFile.name =
      ["a.eo", "b.eo"] := by
    decide
  have hrecovered : recovered cyclicDisk recoveringDatabase ["a.eo", "b.eo"] = ["a.eo"] := by
    decide +kernel
  have hparsed : (["a.eo", "b.eo"].filter fun name =>
      !(recoveringDatabase.parseAll cyclicDisk .interface).2.catalog.isParsed name) =
      [] := by decide +kernel
  dsimp only at hreports
  rw [hnames, hrecovered] at hreports
  obtain ⟨-, -, -, -, hlength, -, -⟩ := hreports
  rw [hparsed] at hlength
  exact ⟨hrecovered, hlength⟩

end Database

end InterfaceCatalog
