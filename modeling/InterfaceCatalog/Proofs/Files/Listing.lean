import InterfaceCatalog.Files.Disk
import InterfaceCatalog.Proofs.Association

namespace InterfaceCatalog

theorem bytesLess_iff {a b : Bytes} : bytesLess a b = true ↔ a < b := by
  induction a generalizing b with
  | nil => cases b <;> simp [bytesLess]
  | cons x xs ih => cases b <;> simp [bytesLess, List.cons_lt_cons_iff, ih]

theorem not_bytesLess_iff {a b : Bytes} : (!bytesLess b a) = true ↔ a ≤ b := by
  rw [Bool.not_eq_true', ← Bool.not_eq_true, bytesLess_iff, List.not_lt]

/-- Goes down from a path by a row of names. -/
def Path.follow (p : Path) (route : List Bytes) : Path := route.foldl Path.join p

namespace Node

/-- What holds of files, and of a directory if it holds of what is in it, holds of all nodes. -/
theorem induction {P : Node → Prop} (file : ∀ content, P (.file content))
    (directory : ∀ entries, (∀ entry ∈ entries, P entry.2) → P (.directory entries)) (node : Node) :
    P node :=
  @Node.rec P (fun entries => ∀ entry ∈ entries, P entry.2) (fun entry => P entry.2) file directory
    (fun _ h => absurd h List.not_mem_nil)
      (fun _ _ hfirst hrest => List.forall_mem_cons.mpr ⟨hfirst, hrest⟩)
    (fun _ _ h => h) node

/-- No directory has two entries of one name. -/
inductive WellNamed : Node → Prop
  | file (content : Bytes) : WellNamed (.file content)
  | directory {entries : List (Bytes × Node)} (hnames : (entries.map Prod.fst).Nodup)
      (h : ∀ entry ∈ entries, WellNamed entry.2) : WellNamed (.directory entries)

section

variable {α β : Type}

def byName (entries : List (Bytes × α)) : List (Bytes × α) :=
  entries.mergeSort fun a b => !bytesLess b.1 a.1

theorem byName_perm (entries : List (Bytes × α)) : (byName entries).Perm entries :=
  List.mergeSort_perm _ _

theorem byName_map (f : Bytes × α → β) (entries : List (Bytes × α)) :
    byName (entries.map fun entry => (entry.1, f entry)) =
      (byName entries).map fun entry => (entry.1, f entry) := by
  unfold byName
  rw [List.map_mergeSort]
  exact fun _ _ _ _ => rfl

theorem pairwise_byName {entries : List (Bytes × α)} (hnames : (entries.map Prod.fst).Nodup) :
    (byName entries).Pairwise fun a b => a.1 < b.1 := by
  have hle : (byName entries).Pairwise fun a b => a.1 ≤ b.1 := by
    refine (List.pairwise_mergeSort (fun a b c hab hbc => ?_) (fun a b => ?_) entries).imp
      not_bytesLess_iff.mp
    · exact not_bytesLess_iff.mpr
        (List.le_trans (not_bytesLess_iff.mp hab) (not_bytesLess_iff.mp hbc))
    · rw [Bool.or_eq_true, not_bytesLess_iff, not_bytesLess_iff]
      exact List.le_total _ _
  have hne : (byName entries).Pairwise fun a b => a.1 ≠ b.1 :=
    List.pairwise_map.mp (((byName_perm entries).map Prod.fst).nodup_iff.mpr hnames)
  refine (hle.and hne).imp fun ⟨hab, hne⟩ => ?_
  exact List.not_le.mp fun hba => hne (List.le_antisymm hab hba)

end

mutual

/-- The ways from a node to the files below it: those through the first entry by name, then those
through the next one. -/
def listing : Node → List (List Bytes)
  | file _ => [[]]
  | directory entries => (byName (entryListings entries)).flatMap fun entry =>
      entry.2.map (entry.1 :: ·)

def entryListings : List (Bytes × Node) → List (Bytes × List (List Bytes))
  | [] => []
  | (name, node) :: rest => (name, node.listing) :: entryListings rest

end

variable {node : Node} {entries : List (Bytes × Node)} {barred : Path → Option AccessFault}

theorem listing_directory : (directory entries).listing =
    (byName entries).flatMap fun entry => entry.2.listing.map (entry.1 :: ·) := by
  have hentries : entryListings entries = entries.map fun entry => (entry.1, entry.2.listing) := by
    induction entries with
    | nil => rfl
    | cons entry entries ih => rw [entryListings, ih, List.map_cons]
  rw [listing, hentries, byName_map fun entry : Bytes × Node => entry.2.listing, List.flatMap_map]

theorem findings_directory {p : Path} (hp : barred p = none) :
    (directory entries).findings barred p = (byName entries).flatMap
      fun entry => entry.2.findings barred (p.join entry.1) := by
  have hentries : entryFindings barred p entries =
      entries.map fun entry => (entry.1, entry.2.findings barred (p.join entry.1)) := by
    induction entries with
    | nil => rfl
    | cons entry entries ih => rw [entryFindings, ih, List.map_cons]
  rw [findings, hp]
  dsimp only
  rw [hentries]
  change (byName _).flatMap _ = _
  rw [byName_map fun entry : Bytes × Node => entry.2.findings barred (p.join entry.1),
    List.flatMap_map]

/-- A scan that comes upon no barred directory finds the files of the listing, in its order. -/
theorem findings_eq_map_listing (node : Node) (p : Path)
    (h : ∀ q fault, .barred q fault ∉ node.findings barred p) :
    node.findings barred p = node.listing.map fun route => .file (p.follow route) := by
  induction node using induction generalizing p with
  | file content => rfl
  | directory entries ih =>
    cases hp : barred p with
    | some fault => simp [findings, hp] at h
    | none =>
      rw [findings_directory hp] at h ⊢
      rw [listing_directory, List.map_flatMap]
      refine List.flatMap_congr fun entry hentry => ?_
      have hmem := (byName_perm entries).mem_iff.mp hentry
      rw [ih entry hmem (p.join entry.1) fun q fault hq =>
        h q fault (List.mem_flatMap.mpr ⟨entry, hentry, hq⟩), List.map_map]
      rfl

/-- The listing has the ways that lead to files. -/
theorem WellNamed.mem_listing (h : node.WellNamed) {route : List Bytes} :
    route ∈ node.listing ↔ ∃ content, node.find? route = some (.file content) := by
  induction h generalizing route with
  | file content => cases route <;> simp [listing, find?, child?]
  | @directory entries hnames _ ih =>
    rw [listing_directory, List.mem_flatMap]
    cases route with
    | nil => simp [find?]
    | cons name route =>
      rw [find?, child?]
      constructor
      · rintro ⟨entry, hentry, hroute⟩
        have hmem := (byName_perm entries).mem_iff.mp hentry
        obtain ⟨route, hroute, hcons⟩ := List.mem_map.mp hroute
        cases hcons
        rw [lookup_of_mem hnames hmem]
        exact (ih entry hmem).mp hroute
      · intro hfile
        cases hchild : entries.lookup name with
        | none => simp [hchild] at hfile
        | some child =>
          rw [hchild] at hfile
          have hmem := mem_of_lookup hchild
          exact ⟨_, (byName_perm entries).mem_iff.mpr hmem,
            List.mem_map.mpr ⟨route, (ih _ hmem).mpr hfile, rfl⟩⟩

/-- The listing is in order, so that no way is in it twice. -/
theorem WellNamed.pairwise_listing (h : node.WellNamed) : node.listing.Pairwise (· < ·) := by
  induction h with
  | file content => exact List.pairwise_singleton _ _
  | @directory entries hnames _ ih =>
    rw [listing_directory, List.pairwise_flatMap]
    refine ⟨fun entry hentry => ?_, (pairwise_byName hnames).imp fun {a b} hab x hx y hy => ?_⟩
    · refine List.pairwise_map.mpr ((ih entry ((byName_perm entries).mem_iff.mp hentry)).imp
        fun hlt => ?_)
      exact List.cons_lt_cons_iff.mpr (.inr ⟨rfl, hlt⟩)
    · obtain ⟨_, -, rfl⟩ := List.mem_map.mp hx
      obtain ⟨_, -, rfl⟩ := List.mem_map.mp hy
      exact List.cons_lt_cons_iff.mpr (.inl hab)

end Node

end InterfaceCatalog
