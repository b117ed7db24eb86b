import ApiCoverage.Proofs.Files.Lookup
import ApiCoverage.Proofs.Files.Walk
import Mathlib.Data.List.Basic

/-!
# Pruned file trees

A file tree is pruned by taking away entries that are unwanted, whichever and however many. A walk
through what is left meets the same entries, except for those that were taken away. A path that leads
somewhere in the pruned tree leads to the same place in the full one. The converse holds of paths that
lead to wanted entries, if only files are unwanted: a lookup goes through folders and links, so no file
on its way can be missed.
-/

namespace ApiCoverage

/-- Named entries without some that are unwanted, where the others are changed under their names. -/
inductive Thinned (unwanted : FileEntry → Prop) (change : FileEntry → FileEntry → Prop) :
    List (String × FileEntry) → List (String × FileEntry) → Prop where
  | nil : Thinned unwanted change [] []
  | kept {name : String} {entry less : FileEntry} {rest others : List (String × FileEntry)}
      (changed : change entry less)
      (thinned : Thinned unwanted change rest others) :
      Thinned unwanted change ((name, entry) :: rest) ((name, less) :: others)
  | dropped {name : String} {entry : FileEntry} {rest others : List (String × FileEntry)}
      (needless : unwanted entry)
      (thinned : Thinned unwanted change rest others) :
      Thinned unwanted change ((name, entry) :: rest) others

/-- An entry without some unwanted entries below it. The names in a folder differ from each other. -/
inductive FileEntry.Pruned (unwanted : FileEntry → Prop) : FileEntry → FileEntry → Prop where
  | leaf {entry : FileEntry} (leaf : entry.isFolder = false) : Pruned unwanted entry entry
  | folder {members kept : List (String × FileEntry)}
      (distinct : (members.map Prod.fst).Nodup)
      (thinned : Thinned unwanted (Pruned unwanted) members kept) :
      Pruned unwanted (.folder members) (.folder kept)

/-- A file tree without some unwanted entries. -/
structure FileTree.Pruned (unwanted : FileEntry → Prop) (tree less : FileTree) : Prop where
  root : tree.root.Pruned unwanted less.root
  workingFolder : less.workingFolder = tree.workingFolder

variable {unwanted : FileEntry → Prop}

namespace Thinned

variable {change : FileEntry → FileEntry → Prop} {entries less : List (String × FileEntry)}

theorem append {more others : List (String × FileEntry)}
    (first : Thinned unwanted change entries less) (second : Thinned unwanted change more others) :
    Thinned unwanted change (entries ++ more) (less ++ others) := by
  induction first with
  | nil => exact second
  | kept changed _ ih => exact .kept changed ih
  | dropped needless _ ih => exact .dropped needless ih

/-- What is left was there before. -/
theorem exists_mem (thinned : Thinned unwanted change entries less) {name : String}
    {left : FileEntry} (member : (name, left) ∈ less) :
    ∃ entry, (name, entry) ∈ entries ∧ change entry left := by
  induction thinned with
  | nil => cases member
  | kept changed _ ih =>
      rcases List.mem_cons.1 member with same | later
      · cases same
        exact ⟨_, List.mem_cons_self, changed⟩
      · rcases ih later with ⟨entry, found, changed⟩
        exact ⟨entry, List.mem_cons_of_mem _ found, changed⟩
  | dropped _ _ ih =>
      rcases ih member with ⟨entry, found, changed⟩
      exact ⟨entry, List.mem_cons_of_mem _ found, changed⟩

/-- A value that unwanted entries lack and that a change keeps is found in the same entries. -/
theorem filterMap_eq {α : Type} {value? : String × FileEntry → Option α}
    (thinned : Thinned unwanted change entries less)
    (lacks : ∀ name entry, unwanted entry → value? (name, entry) = none)
    (keeps : ∀ name entry left, change entry left → value? (name, left) = value? (name, entry)) :
    less.filterMap value? = entries.filterMap value? := by
  induction thinned with
  | nil => rfl
  | kept changed _ ih => rw [List.filterMap_cons, List.filterMap_cons, keeps _ _ _ changed, ih]
  | dropped needless _ ih => rw [List.filterMap_cons, lacks _ _ needless, ih]

/-- A name that is found after thinning was found before. -/
theorem exists_lookup (thinned : Thinned unwanted change entries less)
    (distinct : (entries.map Prod.fst).Nodup) {name : String} {left : FileEntry}
    (found : less.lookup name = some left) :
    ∃ entry, entries.lookup name = some entry ∧ change entry left := by
  induction thinned with
  | nil => cases found
  | @kept other _ _ _ _ changed _ ih =>
      rw [List.map_cons, List.nodup_cons] at distinct
      rw [List.lookup_cons] at found ⊢
      cases same : name == other with
      | true =>
          rw [same] at found
          cases found
          exact ⟨_, rfl, changed⟩
      | false =>
          rw [same] at found
          exact ih distinct.2 found
  | @dropped other _ rest _ _ _ ih =>
      rw [List.map_cons, List.nodup_cons] at distinct
      rcases ih distinct.2 found with ⟨entry, held, changed⟩
      have differs : (name == other) = false := by
        rw [beq_eq_false_iff_ne]
        rintro rfl
        rcases List.lookup_eq_some_iff.1 held with ⟨front, back, rfl, _⟩
        exact distinct.1 (by simp)
      rw [List.lookup_cons, differs]
      exact ⟨entry, held, changed⟩

/-- A name that was found before thinning is found afterwards, unless the entry is unwanted. -/
theorem exists_lookup_left (thinned : Thinned unwanted change entries less) {name : String}
    {entry : FileEntry} (found : entries.lookup name = some entry) (wanted : ¬ unwanted entry) :
    ∃ left, less.lookup name = some left ∧ change entry left := by
  induction thinned with
  | nil => cases found
  | @kept other _ _ _ _ changed _ ih =>
      rw [List.lookup_cons] at found ⊢
      cases same : name == other with
      | true =>
          rw [same] at found
          cases found
          exact ⟨_, rfl, changed⟩
      | false =>
          rw [same] at found
          exact ih found
  | @dropped other _ _ _ needless _ ih =>
      rw [List.lookup_cons] at found
      cases same : name == other with
      | true =>
          rw [same] at found
          cases found
          exact absurd needless wanted
      | false =>
          rw [same] at found
          exact ih found

end Thinned

mutual

/-- What is below a pruned entry is what is below the full one, thinned. -/
theorem FileEntry.contents_thinned (leaves : ∀ entry, unwanted entry → entry.isFolder = false)
    (path : Path) : (entry less : FileEntry) → FileEntry.Pruned unwanted entry less →
      Thinned unwanted (FileEntry.Pruned unwanted) (entry.contents path) (less.contents path)
  | .file _, _, .leaf _ => by rw [FileEntry.contents]; exact .nil
  | .link _, _, .leaf _ => by rw [FileEntry.contents]; exact .nil
  | .folder members, _, .folder _ thinned => by
      rw [FileEntry.contents, FileEntry.contents]
      exact folderContents_thinned leaves path members _ thinned

theorem folderContents_thinned (leaves : ∀ entry, unwanted entry → entry.isFolder = false)
    (path : Path) : (members kept : List (String × FileEntry)) →
      Thinned unwanted (FileEntry.Pruned unwanted) members kept →
      Thinned unwanted (FileEntry.Pruned unwanted) (folderContents path members)
        (folderContents path kept)
  | [], _, .nil => by rw [folderContents]; exact .nil
  | (name, entry) :: rest, _, .kept pruned thinned => by
      rw [folderContents, folderContents]
      exact .kept pruned ((FileEntry.contents_thinned leaves _ entry _ pruned).append
        (folderContents_thinned leaves path rest _ thinned))
  | (name, entry) :: rest, _, .dropped needless thinned => by
      have leaf : entry.contents (Path.join path name) = [] := by
        cases entry with
        | folder members => cases leaves _ needless
        | file content => rw [FileEntry.contents]
        | link target => rw [FileEntry.contents]
      rw [folderContents, leaf]
      exact .dropped needless (folderContents_thinned leaves path rest _ thinned)

end

/-! ## Lookups -/

/-- Only in a folder does a name lead anywhere. -/
theorem FileEntry.isFolder_of_member? {entry child : FileEntry} {name : String}
    (member : entry.member? name = some child) : entry.isFolder = true := by
  cases entry with
  | folder members => rfl
  | file content => cases member
  | link target => cases member

theorem FileEntry.isFolder_of_at?_cons {entry target : FileEntry} {name : String}
    {rest : List String} (found : entry.at? (name :: rest) = some target) :
    entry.isFolder = true := by
  rcases Option.bind_eq_some_iff.1 found with ⟨child, member, _⟩
  exact isFolder_of_member? member

namespace FileEntry.Pruned

variable {entry less : FileEntry}

/-- What stands in a pruned entry stands in the full one. -/
theorem exists_at? {names : List String} {left : FileEntry} (pruned : entry.Pruned unwanted less)
    (found : less.at? names = some left) :
    ∃ full, entry.at? names = some full ∧ full.Pruned unwanted left := by
  induction names generalizing entry less with
  | nil =>
      cases found
      exact ⟨entry, rfl, pruned⟩
  | cons name rest ih =>
      rcases Option.bind_eq_some_iff.1 found with ⟨child, member, below⟩
      cases pruned with
      | leaf leaf =>
          rw [isFolder_of_member? member] at leaf
          cases leaf
      | folder distinct thinned =>
          rcases thinned.exists_lookup distinct member with ⟨full, held, pruned⟩
          rcases ih pruned below with ⟨target, stands, pruned⟩
          exact ⟨target, Option.bind_eq_some_iff.2 ⟨full, held, stands⟩, pruned⟩

/-- What stands in an entry stands in the pruned one, unless it is unwanted. -/
theorem exists_at?_left (leaves : ∀ entry, unwanted entry → entry.isFolder = false)
    {names : List String} {full : FileEntry} (pruned : entry.Pruned unwanted less)
    (found : entry.at? names = some full) (wanted : ¬ unwanted full) :
    ∃ left, less.at? names = some left ∧ full.Pruned unwanted left := by
  induction names generalizing entry less with
  | nil =>
      cases found
      exact ⟨less, rfl, pruned⟩
  | cons name rest ih =>
      rcases Option.bind_eq_some_iff.1 found with ⟨child, member, below⟩
      cases pruned with
      | leaf leaf =>
          rw [isFolder_of_member? member] at leaf
          cases leaf
      | folder distinct thinned =>
          have kept : ¬ unwanted child := by
            intro needless
            cases rest with
            | nil =>
                cases below
                exact wanted needless
            | cons next rest =>
                have leaf := leaves child needless
                rw [isFolder_of_at?_cons below] at leaf
                cases leaf
          rcases thinned.exists_lookup_left member kept with ⟨left, held, pruned⟩
          rcases ih pruned below with ⟨target, stands, pruned⟩
          exact ⟨target, Option.bind_eq_some_iff.2 ⟨left, held, stands⟩, pruned⟩

theorem exists_folder {names : List String} {kept : List (String × FileEntry)}
    (pruned : entry.Pruned unwanted less) (listed : less.at? names = some (.folder kept)) :
    ∃ members, entry.at? names = some (.folder members) ∧ (members.map Prod.fst).Nodup ∧
      Thinned unwanted (Pruned unwanted) members kept := by
  rcases pruned.exists_at? listed with ⟨full, found, pruned⟩
  cases pruned with
  | leaf leaf => cases leaf
  | folder distinct thinned => exact ⟨_, found, distinct, thinned⟩

theorem exists_folder_left (leaves : ∀ entry, unwanted entry → entry.isFolder = false)
    {names : List String} {members : List (String × FileEntry)}
    (pruned : entry.Pruned unwanted less) (listed : entry.at? names = some (.folder members)) :
    ∃ kept, less.at? names = some (.folder kept) ∧
      Thinned unwanted (Pruned unwanted) members kept := by
  have wanted : ¬ unwanted (.folder members) := fun needless => nomatch leaves _ needless
  rcases pruned.exists_at?_left leaves listed wanted with ⟨left, found, pruned⟩
  cases pruned with
  | leaf leaf => cases leaf
  | folder _ thinned => exact ⟨_, found, thinned⟩

/-- Links are kept as they are. -/
theorem eq_link_iff {target : Path} (pruned : entry.Pruned unwanted less) :
    less = .link target ↔ entry = .link target := by
  cases pruned with
  | leaf _ => rfl
  | folder _ _ => simp

end FileEntry.Pruned

theorem FileEntry.at?_concat {root entry : FileEntry} {names : List String} {name : String}
    {members : List (String × FileEntry)} (listed : root.at? names = some (.folder members))
    (found : members.lookup name = some entry) : root.at? (names ++ [name]) = some entry := by
  induction names generalizing root with
  | nil =>
      cases listed
      exact Option.bind_eq_some_iff.2 ⟨entry, found, rfl⟩
  | cons first rest ih =>
      rcases Option.bind_eq_some_iff.1 listed with ⟨child, member, below⟩
      exact Option.bind_eq_some_iff.2 ⟨child, member, ih below⟩

namespace Leads

variable {root less : FileEntry} {followLast : Bool} {links : Nat} {place segments : List String}
  {location : Location}

/-- From an entry that is no folder, a lookup gets nowhere else. -/
theorem entry_of_leaf {entry : FileEntry}
    (leads : Leads root followLast links place segments location)
    (stands : root.at? place.reverse = some entry) (leaf : entry.isFolder = false) :
    location.entry = some entry := by
  have noFolder (members : List (String × FileEntry)) :
      root.at? place.reverse ≠ some (.folder members) := by
    rw [stands]
    rintro ⟨⟩
    cases leaf
  cases leads with
  | here => exact stands
  | idle listed | up listed | missing listed | link listed | through listed | into listed =>
      exact absurd listed (noFolder _)

/-- Where path segments lead from a place in a pruned tree, they lead in the full one. -/
theorem of_pruned (pruned : root.Pruned unwanted less) {left : FileEntry}
    (leads : Leads less followLast links place segments location)
    (stands : location.entry = some left) :
    ∃ full, full.Pruned unwanted left ∧
      Leads root followLast links place segments ⟨location.place, some full⟩ := by
  induction leads with
  | here =>
      rcases pruned.exists_at? stands with ⟨full, found, kept⟩
      exact ⟨full, kept, found ▸ .here⟩
  | idle listed idle _ ih =>
      rcases pruned.exists_folder listed with ⟨_, listedFull, _⟩
      rcases ih stands with ⟨full, kept, next⟩
      exact ⟨full, kept, .idle listedFull idle next⟩
  | up listed _ ih =>
      rcases pruned.exists_folder listed with ⟨_, listedFull, _⟩
      rcases ih stands with ⟨full, kept, next⟩
      exact ⟨full, kept, .up listedFull next⟩
  | missing _ _ _ => cases stands
  | @link _ _ _ _ target listed name found stays =>
      cases stands
      rcases pruned.exists_folder listed with ⟨_, listedFull, distinct, thinned⟩
      rcases thinned.exists_lookup distinct found with ⟨full, foundFull, kept⟩
      cases kept.eq_link_iff.1 rfl
      exact ⟨_, kept, .link listedFull name foundFull stays⟩
  | through listed name found follows _ ih =>
      rcases pruned.exists_folder listed with ⟨_, listedFull, distinct, thinned⟩
      rcases thinned.exists_lookup distinct found with ⟨_, foundFull, kept⟩
      cases kept.eq_link_iff.1 rfl
      rcases ih stands with ⟨full, keptEnd, next⟩
      exact ⟨full, keptEnd, .through listedFull name foundFull follows next⟩
  | into listed name found noLink _ ih =>
      rcases pruned.exists_folder listed with ⟨_, listedFull, distinct, thinned⟩
      rcases thinned.exists_lookup distinct found with ⟨_, foundFull, kept⟩
      rcases ih stands with ⟨full, keptEnd, next⟩
      exact ⟨full, keptEnd, .into listedFull name foundFull
        (fun target same => noLink target (kept.eq_link_iff.2 same)) next⟩

/-- Where path segments lead to a wanted entry, they lead in a tree that was pruned of files. -/
theorem to_pruned (files : ∀ entry, unwanted entry → entry.isFile = true)
    (pruned : root.Pruned unwanted less) {full : FileEntry}
    (leads : Leads root followLast links place segments location)
    (stands : location.entry = some full) (wanted : ¬ unwanted full) :
    ∃ left, full.Pruned unwanted left ∧
      Leads less followLast links place segments ⟨location.place, some left⟩ := by
  have leaves (entry : FileEntry) (needless : unwanted entry) : entry.isFolder = false := by
    have file := files entry needless
    cases entry with
    | file content => rfl
    | folder members => cases file
    | link target => cases file
  have linksKept (target : Path) : ¬ unwanted (.link target) := fun needless =>
    nomatch files _ needless
  induction leads with
  | here =>
      rcases pruned.exists_at?_left leaves stands wanted with ⟨left, found, kept⟩
      exact ⟨left, kept, found ▸ .here⟩
  | idle listed idle _ ih =>
      rcases pruned.exists_folder_left leaves listed with ⟨_, listedLess, _⟩
      rcases ih stands with ⟨left, kept, next⟩
      exact ⟨left, kept, .idle listedLess idle next⟩
  | up listed _ ih =>
      rcases pruned.exists_folder_left leaves listed with ⟨_, listedLess, _⟩
      rcases ih stands with ⟨left, kept, next⟩
      exact ⟨left, kept, .up listedLess next⟩
  | missing _ _ _ => cases stands
  | link listed name found stays =>
      cases stands
      rcases pruned.exists_folder_left leaves listed with ⟨_, listedLess, thinned⟩
      rcases thinned.exists_lookup_left found wanted with ⟨left, foundLess, kept⟩
      cases kept.eq_link_iff.2 rfl
      exact ⟨_, kept, .link listedLess name foundLess stays⟩
  | through listed name found follows _ ih =>
      rcases pruned.exists_folder_left leaves listed with ⟨_, listedLess, thinned⟩
      rcases thinned.exists_lookup_left found (linksKept _) with ⟨_, foundLess, kept⟩
      cases kept.eq_link_iff.2 rfl
      rcases ih stands with ⟨left, keptEnd, next⟩
      exact ⟨left, keptEnd, .through listedLess name foundLess follows next⟩
  | @into _ place _ segment _ entry _ listed name found noLink next ih =>
      rcases pruned.exists_folder_left leaves listed with ⟨_, listedLess, thinned⟩
      have keptEntry : ¬ unwanted entry := by
        intro needless
        have here : root.at? (segment :: place).reverse = some entry := by
          rw [List.reverse_cons]
          exact FileEntry.at?_concat listed found
        rw [next.entry_of_leaf here (leaves entry needless)] at stands
        cases stands
        exact wanted needless
      rcases thinned.exists_lookup_left found keptEntry with ⟨_, foundLess, kept⟩
      rcases ih stands with ⟨left, keptEnd, next⟩
      exact ⟨left, keptEnd, .into listedLess name foundLess
        (fun target same => noLink target (kept.eq_link_iff.1 same)) next⟩

end Leads

/-! ## Paths -/

namespace FileTree.Pruned

variable {tree less : FileTree} {path : Path}

theorem start_eq (pruned : tree.Pruned unwanted less) : less.start path = tree.start path := by
  rw [start, start, pruned.workingFolder]

/-- What a path leads to in a pruned tree, it leads to in the full one. -/
theorem exists_stat (pruned : tree.Pruned unwanted less) {left : FileEntry}
    (found : less.stat path = .ok left) :
    ∃ full, full.Pruned unwanted left ∧ tree.stat path = .ok full := by
  rcases stat_eq_ok_iff.1 found with ⟨usable, place, leads⟩
  rw [pruned.start_eq] at leads
  rcases leads.of_pruned pruned.root rfl with ⟨full, kept, leadsFull⟩
  exact ⟨full, kept, stat_eq_ok_iff.2 ⟨usable, place, leadsFull⟩⟩

/-- A wanted entry that a path leads to is what the path leads to in a tree pruned of files. -/
theorem exists_stat_left (files : ∀ entry, unwanted entry → entry.isFile = true)
    (pruned : tree.Pruned unwanted less) {full : FileEntry} (found : tree.stat path = .ok full)
    (wanted : ¬ unwanted full) : ∃ left, full.Pruned unwanted left ∧ less.stat path = .ok left := by
  rcases stat_eq_ok_iff.1 found with ⟨usable, place, leads⟩
  rcases leads.to_pruned files pruned.root rfl wanted with ⟨left, kept, leadsLess⟩
  rw [← pruned.start_eq] at leadsLess
  exact ⟨left, kept, stat_eq_ok_iff.2 ⟨usable, place, leadsLess⟩⟩

/-- A folder that stands at a path stands there in a tree pruned of files. -/
theorem exists_statLink_left (files : ∀ entry, unwanted entry → entry.isFile = true)
    (pruned : tree.Pruned unwanted less) {members : List (String × FileEntry)}
    (found : tree.statLink path = .ok (.folder members)) :
    ∃ kept, Thinned unwanted (FileEntry.Pruned unwanted) members kept ∧
      less.statLink path = .ok (.folder kept) := by
  have wanted : ¬ unwanted (.folder members) := fun needless => nomatch files _ needless
  rcases statLink_eq_ok_iff.1 found with ⟨usable, place, leads⟩
  rcases leads.to_pruned files pruned.root rfl wanted with ⟨left, kept, leadsLess⟩
  rw [← pruned.start_eq] at leadsLess
  cases kept with
  | leaf leaf => cases leaf
  | folder _ thinned => exact ⟨_, thinned, statLink_eq_ok_iff.2 ⟨usable, place, leadsLess⟩⟩

theorem isFile_of_isFile_left (pruned : tree.Pruned unwanted less)
    (file : less.isFile path = true) : tree.isFile path = true := by
  rcases isFile_eq_true_iff.1 file with ⟨content, found⟩
  rcases pruned.exists_stat found with ⟨full, kept, foundFull⟩
  cases kept with
  | leaf _ => exact isFile_eq_true_iff.2 ⟨content, foundFull⟩

/-- A wanted file is read from a tree pruned of files. -/
theorem read_left (files : ∀ entry, unwanted entry → entry.isFile = true)
    (pruned : tree.Pruned unwanted less) {content : Bytes} (found : tree.read path = .ok content)
    (wanted : ¬ unwanted (.file content)) : less.read path = .ok content := by
  rcases pruned.exists_stat_left files (read_eq_ok_iff.1 found) wanted with ⟨left, kept, foundLess⟩
  cases kept with
  | leaf _ => exact read_eq_ok_iff.2 foundLess

end FileTree.Pruned

end ApiCoverage
