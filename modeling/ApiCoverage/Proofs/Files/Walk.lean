import ApiCoverage.Proofs.Files.Lookup

/-!
# What a walk meets

The entries below a folder are listed with their paths: every folder before its members, and the members
of a folder in the order in which it lists them. A walk meets exactly these entries in this order, once
each, provided that the paths of the folders can be used.
-/

namespace ApiCoverage

/-- An entry with the path at which it stands. -/
abbrev PlacedEntry := Path × FileEntry

/-! ## The entries below a folder -/

mutual

/-- The entries below an entry at a path. -/
def FileEntry.contents (path : Path) : FileEntry → List PlacedEntry
  | .folder members => folderContents path members
  | .file _ => []
  | .link _ => []

/-- The members of a folder at a path, and the entries below them. -/
def folderContents (path : Path) : List (String × FileEntry) → List PlacedEntry
  | [] => []
  | (name, entry) :: rest =>
      (Path.join path name, entry) ::
        (FileEntry.contents (Path.join path name) entry ++ folderContents path rest)

end

/-- The folders among placed entries have paths that can be used, so that they can be listed. -/
def Listed (entries : List PlacedEntry) : Prop :=
  ∀ path members, (path, .folder members) ∈ entries → Path.isTooLong path = false

theorem Listed.mono {entries more : List PlacedEntry} (listed : Listed more)
    (within : ∀ entry ∈ entries, entry ∈ more) : Listed entries :=
  fun path members member => listed path members (within _ member)

/-- The step of a walk that meets a placed entry. -/
def Visit.ofPlaced (entry : PlacedEntry) : Visit :=
  .met entry.1 entry.2

mutual

/-- A walk from an entry meets the entry and then what is below it. -/
theorem FileEntry.walk_eq_map_met (path : Path) :
    (entry : FileEntry) → Listed ((path, entry) :: entry.contents path) →
      entry.walk path = ((path, entry) :: entry.contents path).map Visit.ofPlaced
  | .file _, _ => by rw [FileEntry.walk, FileEntry.contents]; rfl
  | .link _, _ => by rw [FileEntry.walk, FileEntry.contents]; rfl
  | .folder members, listed => by
      have usable := listed path members List.mem_cons_self
      have inner := walkMembers_eq_map_met path members
        (listed.mono fun _ member => List.mem_cons_of_mem _ (by rwa [FileEntry.contents]))
      rw [FileEntry.walk, FileEntry.contents, usable, inner]
      rfl

/-- A walk through the members of a folder meets what is below the folder. -/
theorem walkMembers_eq_map_met (path : Path) :
    (members : List (String × FileEntry)) → Listed (folderContents path members) →
      walkMembers path members = (folderContents path members).map Visit.ofPlaced
  | [], _ => by rw [walkMembers, folderContents]; rfl
  | (name, entry) :: rest, listed => by
      rw [folderContents] at listed
      have first := FileEntry.walk_eq_map_met (Path.join path name) entry
        (listed.mono fun _ member => by
          rw [← List.cons_append]
          exact List.mem_append_left _ member)
      have others := walkMembers_eq_map_met path rest
        (listed.mono fun _ member => List.mem_cons_of_mem _ (List.mem_append_right _ member))
      rw [walkMembers, folderContents, first, others, ← List.map_append, List.cons_append]

end

/-- A walk from a folder meets the folder and then what is below it. -/
theorem FileTree.walk_of_statLink {tree : FileTree} {path : Path}
    {members : List (String × FileEntry)} (stands : tree.statLink path = .ok (.folder members))
    (listed : Listed (folderContents path members)) :
    tree.walk path =
      .ok (((path, .folder members) :: folderContents path members).map Visit.ofPlaced) := by
  have usable := (statLink_eq_ok_iff.1 stands).1
  have visits := FileEntry.walk_eq_map_met path (.folder members)
  rw [FileEntry.contents] at visits
  rw [walk, stands, ← visits]
  · rfl
  · intro place inner member
    rcases List.mem_cons.1 member with same | below
    · cases same
      exact usable.short
    · exact listed place inner below

end ApiCoverage
