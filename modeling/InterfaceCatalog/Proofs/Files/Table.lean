import InterfaceCatalog.Files.Table

namespace InterfaceCatalog

theorem Interner.get?_eq_some {pool : Interner} {name : String} (h : name ∈ pool.names) :
    pool.get? name = some name :=
  if_pos (List.contains_iff_mem.mpr h)

theorem Interner.mem_intern {pool : Interner} {name other : String} :
    other ∈ (pool.intern name).names ↔ other ∈ pool.names ∨ other = name := by
  unfold Interner.intern
  split
  · next h => exact ⟨.inl, fun hother => hother.elim id fun he => he ▸ List.contains_iff_mem.mp h⟩
  · simp

theorem Interner.eq_of_get? {pool : Interner} {name held : String}
    (h : pool.get? name = some held) : held = name := by
  unfold Interner.get? at h
  split at h <;> cases h
  rfl

namespace FileTable

/-- Every name that the first table knows is known to the second one in the same way. -/
def Keeps (table table' : FileTable) : Prop :=
  ∀ name file, table.find? name = some file → table'.find? name = some file

theorem Keeps.refl (table : FileTable) : table.Keeps table :=
  fun _ _ h => h

variable {s : Settings} {table table' : FileTable}

@[simp]
theorem enter_files (table : FileTable) (file : ScannedFile) :
    (table.enter file).files = table.files ++ [file] := by
  unfold enter
  split <;> rfl

@[simp]
theorem enter_pool (table : FileTable) (file : ScannedFile) :
    (table.enter file).pool = table.pool.intern file.name := by
  unfold enter
  split <;> rfl

@[simp]
theorem enter_namesOf (table : FileTable) (file : ScannedFile) (kind : FileKind) :
    (table.enter file).namesOf kind = table.namesOf kind ++ if file.kind = kind then [file.name]
      else [] := by
  unfold enter
  cases hfile : file.kind <;> cases kind <;> simp [namesOf]

theorem enter_find? (table : FileTable) (file : ScannedFile) (name : String) :
    (table.enter file).find? name =
      (table.find? name).or (if file.name = name then some file else none) := by
  unfold find?
  rw [enter_files, List.find?_append, List.find?_singleton]
  simp

theorem keeps_enter (table : FileTable) (file : ScannedFile) : table.Keeps (table.enter file) := by
  intro name known hknown
  rw [enter_find?, hknown, Option.some_or]

/-- What can come of entering a path. -/
theorem register_cases {p : Path} {name : Option String}
    (h : table.register s p = .ok (name, table')) :
    (s.fileKind? p = none ∧ name = none ∧ table' = table) ∨
      ∃ kind text, s.fileKind? p = some kind ∧ fileName p = .ok text ∧
        ((table.contains text ∧ name = table.pool.get? text ∧ table' = table) ∨
          (table.contains text = false ∧ name = some text ∧
            table' = table.enter ⟨text, p, kind⟩)) := by
  unfold register at h
  split at h
  · next hkind =>
    cases h
    exact .inl ⟨hkind, rfl, rfl⟩
  next kind hkind =>
    split at h
    · cases h
    next text hname =>
      refine .inr ⟨kind, text, hkind, hname, ?_⟩
      split at h
      · next hknown =>
        cases h
        exact .inl ⟨hknown, rfl, rfl⟩
      · next hnew =>
        cases h
        exact .inr ⟨Bool.eq_false_iff.mpr hnew, rfl, rfl⟩

theorem register_keeps {p : Path} {name : Option String}
    (h : table.register s p = .ok (name, table')) : table.Keeps table' := by
  obtain ⟨-, -, rfl⟩ | ⟨kind, text, -, -, ⟨-, -, rfl⟩ | ⟨-, -, rfl⟩⟩ := register_cases h
  · exact .refl _
  · exact .refl _
  · exact keeps_enter _ _

/-- A path is entered under its file name, which stands for it unless the name was known. -/
theorem register_find? {p : Path} {name : String}
    (h : table.register s p = .ok (some name, table')) :
    fileName p = .ok name ∧
      ∃ file, table'.find? name = some file ∧ (table.find? name = some file ∨ file.path = p) := by
  obtain ⟨-, hnone, -⟩ | ⟨kind, text, -, hname, ⟨hknown, hpool, rfl⟩ | ⟨hnew, hpool, rfl⟩⟩ :=
    register_cases h
  · cases hnone
  · obtain rfl := Interner.eq_of_get? hpool.symm
    obtain ⟨file, hfile⟩ := Option.isSome_iff_exists.mp hknown
    exact ⟨hname, file, hfile, .inl hfile⟩
  · cases hpool
    have hnone : table.find? name = none :=
      Option.not_isSome_iff_eq_none.mp (Bool.eq_false_iff.mp hnew)
    refine ⟨hname, ⟨name, p, kind⟩, ?_, .inr rfl⟩
    rw [enter_find?, hnone, Option.none_or, if_pos rfl]

theorem register_contains {p : Path} {name : String}
    (h : table.register s p = .ok (some name, table')) : table'.contains name := by
  obtain ⟨-, file, hfile, -⟩ := register_find? h
  exact Option.isSome_iff_exists.mpr ⟨file, hfile⟩

theorem scanned?_eq_some {name known : String} (h : table.scanned? name = some known) :
    known = name ∧ table.contains name := by
  obtain ⟨hpool, hknown⟩ := Option.filter_eq_some_iff.mp h
  obtain rfl := Interner.eq_of_get? hpool
  exact ⟨rfl, hknown⟩

theorem scanned?_of_pooled {name : String} (h : table.contains name → name ∈ table.pool.names) :
    table.scanned? name = if table.contains name then some name else none := by
  by_cases hknown : table.contains name
  · rw [scanned?, Interner.get?_eq_some (h hknown), if_pos hknown]
    exact Option.filter_some_pos hknown
  · rw [if_neg hknown, Option.eq_none_iff_forall_ne_some]
    intro known hscanned
    exact hknown (scanned?_eq_some hscanned).2

theorem same_of_unshadowed {disk : Disk} {p : Path} {name : String} {file : ScannedFile}
    (h : table.shadowing? disk p = none) (hname : fileName p = .ok name)
    (hfile : table.find? name = some file) : file.path.same p ∨ disk.sameFile file.path p := by
  unfold shadowing? at h
  simp only [hname, hfile] at h
  split at h
  · next hsame => exact Bool.or_eq_true_iff.mp hsame
  · cases h

theorem register_names_nodup {p : Path} {name : Option String}
    (h : table.register s p = .ok (name, table')) (hn : table.names.Nodup) :
    table'.names.Nodup := by
  obtain ⟨-, -, rfl⟩ | ⟨kind, text, -, -, ⟨-, -, rfl⟩ | ⟨hnew, -, rfl⟩⟩ := register_cases h
  · exact hn
  · exact hn
  · have hout : text ∉ table.names := by
      simpa [contains, find?, names] using hnew
    simpa [names, List.nodup_append] using ⟨hn, by simpa [names] using hout⟩

theorem register_namesOf {p : Path} {name : Option String} {kind : FileKind}
    (h : table.register s p = .ok (name, table'))
    (hk : table.namesOf kind = (table.ofKind kind).map ScannedFile.name) :
    table'.namesOf kind = (table'.ofKind kind).map ScannedFile.name := by
  obtain ⟨-, -, rfl⟩ | ⟨kind', text, -, -, ⟨-, -, rfl⟩ | ⟨-, -, rfl⟩⟩ := register_cases h
  · exact hk
  · exact hk
  · rw [enter_namesOf, hk, ofKind, ofKind, enter_files, List.filter_append, List.map_append]
    by_cases hkind : kind' = kind <;> simp [hkind]

end FileTable

end InterfaceCatalog
