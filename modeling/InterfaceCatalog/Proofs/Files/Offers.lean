import Mathlib.Data.List.Basic
import Mathlib.Data.List.Induction
import Mathlib.Data.List.TakeWhile
import InterfaceCatalog.Proofs.Files.Table

namespace InterfaceCatalog

/-- The files of a row whose names do not come earlier in it. -/
def firsts : List ScannedFile → List ScannedFile
  | [] => []
  | file :: files => file :: (firsts files).filter fun other => other.name ≠ file.name

theorem find?_firsts (files : List ScannedFile) (name : String) :
    (firsts files).find? (fun file => file.name = name) = files.find?
      fun file => file.name = name := by
  induction files with
  | nil => rfl
  | cons file files ih =>
    rw [firsts, List.find?_cons, List.find?_cons]
    by_cases hname : file.name = name
    · simp [hname]
    · have hother (other : ScannedFile) : (other.name ≠ file.name ∧ other.name = name) ↔
          other.name = name :=
        and_iff_right_of_imp fun h he => hname (he.symm.trans h)
      simpa [hname, List.find?_filter, hother] using ih

theorem firsts_names_nodup (files : List ScannedFile) :
    ((firsts files).map ScannedFile.name).Nodup := by
  induction files with
  | nil => exact List.nodup_nil
  | cons file files ih =>
    rw [firsts, List.map_cons, List.nodup_cons]
    refine ⟨fun hmem => ?_, ih.sublist (List.filter_sublist.map _)⟩
    obtain ⟨other, hother, hname⟩ := List.mem_map.mp hmem
    exact of_decide_eq_true (List.mem_filter.mp hother).2 hname

/-- One more file stays out if there is one of its name, and comes last otherwise. -/
theorem firsts_concat (files : List ScannedFile) (file : ScannedFile) : firsts (files ++ [file]) =
    if (files.find? fun other => other.name = file.name).isSome then firsts files
    else firsts files ++ [file] := by
  induction files with
  | nil => rfl
  | cons first files ih =>
    rw [List.cons_append, firsts, ih, firsts, List.find?_cons]
    by_cases hname : first.name = file.name
    · split <;> simp [hname]
    · have hkept : file.name ≠ first.name := Ne.symm hname
      simp only [hname, decide_false]
      split <;> simp [hkept]

namespace Settings

/-- What a scan enters for a finding. -/
def fileOf? (s : Settings) : Finding → Option ScannedFile
  | .barred _ _ => none
  | .file p =>
    match s.fileKind? p, fileName p with
    | some kind, .ok name => some ⟨name, p, kind⟩
    | _, _ => none

/-- What ends a scan at a finding. -/
def fault? (s : Settings) : Finding → Option LoadError
  | .barred p fault => some (.access p fault)
  | .file p =>
    match s.fileKind? p, fileName p with
    | some _, .error fault => some (.conversion p fault)
    | _, _ => none

/-- What a scan enters for a row of findings, up to the first fault. -/
def offers (s : Settings) (findings : List Finding) : List ScannedFile :=
  (findings.takeWhile fun finding => (s.fault? finding).isNone).filterMap s.fileOf?

variable {s : Settings} {findings findings' : List Finding}

theorem fileOf?_of_fault {finding : Finding} {e : LoadError} (h : s.fault? finding = some e) :
    s.fileOf? finding = none := by
  cases finding with
  | barred p fault => rfl
  | file p =>
    dsimp only [fault?] at h
    split at h
    · next hkind hname => simp [fileOf?, hkind, hname]
    · cases h

theorem isNone_fault? (h : findings.findSome? s.fault? = none) :
    ∀ finding ∈ findings, (s.fault? finding).isNone := by
  simpa using h

theorem offers_of_faultless (h : findings.findSome? s.fault? = none) :
    s.offers findings = findings.filterMap s.fileOf? := by
  rw [offers, List.takeWhile_eq_self_iff.mpr (isNone_fault? h)]

theorem offers_append (h : findings.findSome? s.fault? = none) :
    s.offers (findings ++ findings') = s.offers findings ++ s.offers findings' := by
  rw [offers_of_faultless h, offers, List.takeWhile_append_of_pos (isNone_fault? h),
    List.filterMap_append]
  rfl

theorem offers_append_of_fault {e : LoadError} (h : findings.findSome? s.fault? = some e) :
    s.offers (findings ++ findings') = s.offers findings := by
  have hshort : (findings.takeWhile fun finding => (s.fault? finding).isNone).length ≠
      findings.length := by
    intro hlength
    have hall := List.takeWhile_eq_self_iff.mp ((List.takeWhile_prefix _).eq_of_length hlength)
    have hnone : findings.findSome? s.fault? = none := by simpa using hall
    rw [hnone] at h
    cases h
  rw [offers, List.takeWhile_append, if_neg hshort, offers]

end Settings

namespace FileTable

/-- Enters a file unless its name is known. -/
def offer (table : FileTable) (file : ScannedFile) : FileTable :=
  if table.contains file.name then table else table.enter file

def offerAll (table : FileTable) (files : List ScannedFile) : FileTable := files.foldl offer table

variable {s : Settings} {table table' : FileTable}

theorem register_eq (table : FileTable) (s : Settings) (p : Path) : table.register s p =
    match s.fault? (.file p) with
    | some e => .error e
    | none => .ok ((s.fileOf? (.file p)).bind fun file => (table.offer file).pool.get? file.name,
        table.offerAll (s.fileOf? (.file p)).toList) := by
  dsimp only [register, Settings.fault?, Settings.fileOf?]
  cases s.fileKind? p with
  | none => rfl
  | some kind =>
    cases fileName p with
    | error fault => rfl
    | ok name =>
      dsimp only [Option.bind_some, Option.toList_some, offerAll, List.foldl_cons,
        List.foldl_nil, offer]
      split
      · rfl
      · rw [enter_pool, Interner.get?_eq_some (Interner.mem_intern.mpr (.inr rfl))]

theorem registerAll_eq (s : Settings) (table : FileTable) (findings : List Finding) :
    table.registerAll s findings =
      (findings.findSome? s.fault?, table.offerAll (s.offers findings)) := by
  induction findings generalizing table with
  | nil => rfl
  | cons finding findings ih =>
    cases finding with
    | barred p fault => rfl
    | file p =>
      rw [registerAll, register_eq]
      cases hfault : s.fault? (.file p) with
      | some e => simp [Settings.offers, hfault, offerAll]
      | none =>
        dsimp only
        rw [ih]
        cases hentry : s.fileOf? (.file p) <;> simp [Settings.offers, hfault, hentry, offerAll]

theorem offerAll_append (table : FileTable) (files files' : List ScannedFile) :
    table.offerAll (files ++ files') = (table.offerAll files).offerAll files' :=
  List.foldl_append

theorem offer_extends (table : FileTable) (file : ScannedFile) :
    table.files <+: (table.offer file).files := by
  unfold offer
  split
  · exact List.prefix_rfl
  · rw [enter_files]
    exact List.prefix_append _ _

theorem offerAll_extends (table : FileTable) (files : List ScannedFile) :
    table.files <+: (table.offerAll files).files := by
  induction files generalizing table with
  | nil => exact List.prefix_rfl
  | cons file files ih => exact (offer_extends table file).trans (ih (table.offer file))

theorem Keeps.of_extends (h : table.files <+: table'.files) : table.Keeps table' :=
  fun _ _ hknown => h.find?_eq_some hknown

theorem Keeps.contains (h : table.Keeps table') {name : String} (hname : table.contains name) :
    table'.contains name := by
  obtain ⟨file, hfile⟩ := Option.isSome_iff_exists.mp hname
  exact Option.isSome_iff_exists.mpr ⟨file, h name file hfile⟩

theorem offer_contains (table : FileTable) (file : ScannedFile) :
    (table.offer file).contains file.name := by
  unfold offer
  split
  · assumption
  · rw [contains, enter_find?, if_pos rfl]
    cases table.find? file.name <;> rfl

theorem contains_of_mem_offerAll {files : List ScannedFile} {file : ScannedFile}
    (h : file ∈ files) : (table.offerAll files).contains file.name := by
  induction files generalizing table with
  | nil => exact absurd h List.not_mem_nil
  | cons first files ih =>
    rcases List.mem_cons.mp h with rfl | hrest
    · exact (Keeps.of_extends (offerAll_extends (table.offer file) files)).contains
        (offer_contains table file)
    · exact ih hrest

/-- Files whose names are known leave the table as it is. -/
theorem offerAll_of_contains {files : List ScannedFile}
    (h : ∀ file ∈ files, table.contains file.name) : table.offerAll files = table := by
  induction files with
  | nil => rfl
  | cons file files ih =>
    obtain ⟨hfirst, hrest⟩ := List.forall_mem_cons.mp h
    rw [offerAll, List.foldl_cons, offer, if_pos hfirst]
    exact ih hrest

def ofFiles (files : List ScannedFile) : FileTable := files.foldl enter {}

theorem ofFiles_concat (files : List ScannedFile) (file : ScannedFile) :
    ofFiles (files ++ [file]) = (ofFiles files).enter file := by
  simp [ofFiles]

@[simp]
theorem ofFiles_files (files : List ScannedFile) : (ofFiles files).files = files := by
  induction files using List.reverseRecOn with
  | nil => rfl
  | append_singleton files file ih => rw [ofFiles_concat, enter_files, ih]

theorem ofFiles_find? (files : List ScannedFile) (name : String) :
    (ofFiles files).find? name = files.find? fun file => file.name = name := by
  rw [find?, ofFiles_files]

theorem ofFiles_namesOf (files : List ScannedFile) (kind : FileKind) :
    (ofFiles files).namesOf kind =
      (files.filter fun file => file.kind = kind).map ScannedFile.name := by
  induction files using List.reverseRecOn with
  | nil => cases kind <;> rfl
  | append_singleton files file ih =>
    rw [ofFiles_concat, enter_namesOf, ih, List.filter_append, List.map_append]
    by_cases hkind : file.kind = kind <;> simp [hkind]

theorem mem_ofFiles_pool {files : List ScannedFile} {file : ScannedFile} (h : file ∈ files) :
    file.name ∈ (ofFiles files).pool.names := by
  induction files using List.reverseRecOn with
  | nil => exact absurd h List.not_mem_nil
  | append_singleton files last ih =>
    rw [ofFiles_concat, enter_pool, Interner.mem_intern]
    rcases List.mem_append.mp h with hmem | hlast
    · exact .inl (ih hmem)
    · exact .inr (congrArg ScannedFile.name (List.mem_singleton.mp hlast))

/-- The table of the first files stays that of the first files when more of them are offered. -/
theorem offerAll_firsts (past files : List ScannedFile) :
    (ofFiles (firsts past)).offerAll files = ofFiles (firsts (past ++ files)) := by
  induction files generalizing past with
  | nil => rw [List.append_nil]; rfl
  | cons file files ih =>
    have hoffer : (ofFiles (firsts past)).offer file = ofFiles (firsts (past ++ [file])) := by
      rw [offer, contains, ofFiles_find?, find?_firsts, firsts_concat]
      split
      · rfl
      · rw [ofFiles_concat]
    rw [offerAll, List.foldl_cons, hoffer]
    exact (ih _).trans (by rw [List.append_assoc, List.singleton_append])

/-- The table has the first file of each name in a row, in the order of the row. It tells the name
of each of them once, under the kind of the file, and has it in its pool. -/
structure Lists (table : FileTable) (past : List ScannedFile) : Prop where
  files : table.files = firsts past
  find? : ∀ name, table.find? name = past.find? fun file => file.name = name
  scanned? : ∀ name, table.scanned? name = if table.contains name then some name else none
  namesOf : ∀ kind, table.namesOf kind =
    ((firsts past).filter fun file => file.kind = kind).map ScannedFile.name
  paths : ∀ kind, table.paths kind =
    ((firsts past).filter fun file => file.kind = kind).map ScannedFile.path
  nodup : (table.namesOf .interface ++ table.namesOf .types).Nodup
  mem_namesOf : ∀ kind name, name ∈ table.namesOf kind ↔ ∃ file, table.find? name = some file ∧
    file.kind = kind

theorem mem_of_find? {name : String} {file : ScannedFile} (h : table.find? name = some file) :
    file ∈ table.files ∧ file.name = name :=
  ⟨List.mem_of_find?_eq_some h, of_decide_eq_true (List.find?_some h :)⟩

theorem find?_of_mem (hn : table.names.Nodup) {file : ScannedFile} (h : file ∈ table.files) :
    table.find? file.name = some file := by
  obtain ⟨front, rest, hsplit⟩ := List.append_of_mem h
  refine List.find?_eq_some_iff_append.mpr ⟨decide_eq_true rfl, front, rest, hsplit,
    fun other hother => ?_⟩
  rw [names, hsplit, List.map_append, List.map_cons, List.nodup_append] at hn
  have hne : other.name ≠ file.name := hn.2.2 _ (List.mem_map_of_mem hother) _ List.mem_cons_self
  simpa using hne

theorem lists_ofFiles (past : List ScannedFile) : (ofFiles (firsts past)).Lists past := by
  have hnames : (ofFiles (firsts past)).names.Nodup := by
    rw [names, ofFiles_files]
    exact firsts_names_nodup past
  have hfind {file : ScannedFile} (h : file ∈ firsts past) :
      (ofFiles (firsts past)).find? file.name = some file :=
    find?_of_mem hnames (by rwa [ofFiles_files])
  refine ⟨ofFiles_files _, fun name => ?_, fun name => ?_, ofFiles_namesOf _, fun kind => ?_, ?_,
    fun kind name => ?_⟩
  · rw [ofFiles_find?, find?_firsts]
  · refine scanned?_of_pooled fun hknown => ?_
    obtain ⟨file, hfile⟩ := Option.isSome_iff_exists.mp hknown
    obtain ⟨hmem, rfl⟩ := mem_of_find? hfile
    rw [ofFiles_files] at hmem
    exact mem_ofFiles_pool hmem
  · rw [paths, ofFiles_namesOf, List.filterMap_map]
    have hfound : ((firsts past).filter fun file => file.kind = kind).filterMap
        ((ofFiles (firsts past)).find? ∘ ScannedFile.name) = List.filterMap some _ :=
      List.filterMap_congr fun file hfile => hfind (List.mem_of_mem_filter hfile)
    exact congrArg _ (hfound.trans List.filterMap_some)
  · have hkinds : (firsts past).filter (fun file => file.kind = .types) =
        (firsts past).filter fun file => !decide (file.kind = .interface) :=
      List.filter_congr fun file _ => by cases file.kind <;> rfl
    rw [ofFiles_namesOf, ofFiles_namesOf, ← List.map_append, hkinds]
    exact ((List.filter_append_perm _ _).map _).nodup_iff.mpr (firsts_names_nodup past)
  · rw [ofFiles_namesOf]
    constructor
    · intro hname
      obtain ⟨file, hfile, rfl⟩ := List.mem_map.mp hname
      obtain ⟨hmem, hkind⟩ := List.mem_filter.mp hfile
      exact ⟨file, hfind hmem, of_decide_eq_true hkind⟩
    · rintro ⟨file, hfile, hkind⟩
      obtain ⟨hmem, rfl⟩ := mem_of_find? hfile
      rw [ofFiles_files] at hmem
      exact List.mem_map_of_mem (List.mem_filter.mpr ⟨hmem, decide_eq_true hkind⟩)

end FileTable

end InterfaceCatalog
