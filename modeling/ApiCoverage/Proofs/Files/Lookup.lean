import ApiCoverage.Files.Tree
import ApiCoverage.Proofs.Outcome

/-!
# Where a lookup leads

A lookup that succeeds goes from folder to folder, segment by segment. The steps that it can take are
the cases of a relation, and what holds of every lookup is shown step by step.
-/

namespace ApiCoverage

/-- A path segment that is looked up among the members of a folder. -/
structure IsMemberName (segment : String) : Prop where
  named : (segment.isEmpty || segment == ".") = false
  notParent : (segment == "..") = false
  short : segment.utf8ByteSize ≤ FileTree.maxName

/-- Path segments lead from a place to a location, with a number of links left to follow. -/
inductive Leads (root : FileEntry) (followLast : Bool) :
    Nat → List String → List String → Location → Prop where
  | here {links : Nat} {place : List String} :
      Leads root followLast links place [] ⟨place.reverse, root.at? place.reverse⟩
  | idle {links : Nat} {place rest : List String} {segment : String}
      {members : List (String × FileEntry)} {location : Location}
      (listed : root.at? place.reverse = some (.folder members))
      (idle : (segment.isEmpty || segment == ".") = true)
      (next : Leads root followLast links place rest location) :
      Leads root followLast links place (segment :: rest) location
  | up {links : Nat} {place rest : List String} {members : List (String × FileEntry)}
      {location : Location}
      (listed : root.at? place.reverse = some (.folder members))
      (next : Leads root followLast links place.tail rest location) :
      Leads root followLast links place (".." :: rest) location
  | missing {links : Nat} {place : List String} {segment : String}
      {members : List (String × FileEntry)}
      (listed : root.at? place.reverse = some (.folder members))
      (name : IsMemberName segment)
      (found : members.lookup segment = none) :
      Leads root followLast links place [segment] ⟨(segment :: place).reverse, none⟩
  | link {links : Nat} {place : List String} {segment : String}
      {members : List (String × FileEntry)} {target : Path}
      (listed : root.at? place.reverse = some (.folder members))
      (name : IsMemberName segment)
      (found : members.lookup segment = some (.link target))
      (stays : followLast = false) :
      Leads root followLast links place [segment]
        ⟨(segment :: place).reverse, some (.link target)⟩
  | through {links : Nat} {place rest : List String} {segment : String}
      {members : List (String × FileEntry)} {target : Path} {location : Location}
      (listed : root.at? place.reverse = some (.folder members))
      (name : IsMemberName segment)
      (found : members.lookup segment = some (.link target))
      (follows : (rest.isEmpty && !followLast) = false)
      (next : Leads root followLast links (if Path.isAbsolute target then [] else place)
        (Path.segments target ++ rest) location) :
      Leads root followLast (links + 1) place (segment :: rest) location
  | into {links : Nat} {place rest : List String} {segment : String}
      {members : List (String × FileEntry)} {entry : FileEntry} {location : Location}
      (listed : root.at? place.reverse = some (.folder members))
      (name : IsMemberName segment)
      (found : members.lookup segment = some entry)
      (noLink : ∀ target, entry ≠ .link target)
      (next : Leads root followLast links (segment :: place) rest location) :
      Leads root followLast links place (segment :: rest) location

namespace FileTree

variable {root : FileEntry} {followLast : Bool} {links : Nat} {place segments : List String}
  {location : Location}

theorem follow_of_leads (leads : Leads root followLast links place segments location) :
    follow root followLast links place segments = .ok location := by
  induction leads with
  | here => rw [follow]
  | idle listed idle next ih =>
      rw [follow, listed]
      simp only [idle, if_true]
      exact ih
  | up listed next ih =>
      rw [follow, listed]
      exact ih
  | missing listed name found =>
      rw [follow, listed]
      simp [name.named, name.notParent, name.short, found]
  | link listed name found stays =>
      rw [follow, listed]
      simp [name.named, name.notParent, name.short, found, stays]
  | through listed name found follows next ih =>
      rw [follow, listed]
      simp only [name.named, name.notParent, Nat.not_lt.2 name.short, found, follows,
        Bool.false_eq_true, if_false]
      exact ih
  | into listed name found noLink next ih =>
      rw [follow, listed]
      simp only [name.named, name.notParent, Nat.not_lt.2 name.short, found, Bool.false_eq_true,
        if_false]
      exact ih

/-- Every lookup that succeeds is made of these steps. -/
theorem leads_of_follow (found : follow root followLast links place segments = .ok location) :
    Leads root followLast links place segments location := by
  -- A step uses up a segment, or a link in exchange for the segments of its target.
  induction links using Nat.strongRecOn generalizing place segments with
  | ind links ihLinks =>
      induction segments generalizing place with
      | nil =>
          rw [follow] at found
          cases found
          exact .here
      | cons segment rest ih =>
          rw [follow] at found
          split at found
          · next members listed =>
              by_cases idle : (segment.isEmpty || segment == ".") = true
              · rw [if_pos idle] at found
                exact .idle listed idle (ih found)
              rw [if_neg idle] at found
              by_cases parent : (segment == "..") = true
              · rw [if_pos parent] at found
                rw [beq_iff_eq.1 parent]
                exact .up listed (ih found)
              rw [if_neg parent] at found
              by_cases long : maxName < segment.utf8ByteSize
              · rw [if_pos long] at found
                cases found
              rw [if_neg long] at found
              have name : IsMemberName segment :=
                ⟨Bool.eq_false_iff.2 idle, Bool.eq_false_iff.2 parent, Nat.not_lt.1 long⟩
              split at found
              · next absent =>
                  split at found
                  · next last =>
                      cases found
                      rw [List.isEmpty_iff.1 last]
                      exact .missing listed name absent
                  · cases found
              · next target member =>
                  split at found
                  · next stays =>
                      rw [Bool.and_eq_true, Bool.not_eq_true'] at stays
                      cases found
                      rw [List.isEmpty_iff.1 stays.1]
                      exact .link listed name member stays.2
                  · next follows =>
                      split at found
                      · cases found
                      · next left =>
                          exact .through listed name member (Bool.eq_false_iff.2 follows)
                            (ihLinks left (Nat.lt_succ_self left) found)
              · next entry noLink member =>
                  exact .into listed name member noLink (ih found)
          · cases found
          · cases found

end FileTree

/-- A lookup that ends at a folder goes the same way if it follows a link at the end. -/
theorem Leads.toFolder {root : FileEntry} {links : Nat} {place segments : List String}
    {location : Location} {members : List (String × FileEntry)}
    (leads : Leads root false links place segments location)
    (folder : location.entry = some (.folder members)) :
    Leads root true links place segments location := by
  induction leads with
  | here => exact .here
  | idle listed idle next ih => exact .idle listed idle (ih folder)
  | up listed next ih => exact .up listed (ih folder)
  | missing listed name found => exact .missing listed name found
  | link listed name found stays => cases folder
  | through listed name found follows next ih =>
      exact .through listed name found (by rw [Bool.not_true, Bool.and_false]) (ih folder)
  | into listed name found noLink next ih => exact .into listed name found noLink (ih folder)

/-- A path that a file tree can look up. -/
structure IsUsable (path : Path) : Prop where
  nonempty : path.isEmpty = false
  noNul : path.toList.contains '\x00' = false
  short : Path.isTooLong path = false

namespace FileTree

variable {tree : FileTree} {path : Path} {entry : FileEntry}

/-- The place where the lookup of a path starts, whose names stand in reverse. -/
def start (tree : FileTree) (path : Path) : List String :=
  if Path.isAbsolute path then [] else tree.workingFolder.reverse

theorem locate_eq_ok_iff {followLast : Bool} {location : Location} :
    tree.locate followLast path = .ok location ↔
      IsUsable path ∧
        Leads tree.root followLast maxLinks (tree.start path) (Path.segments path) location := by
  constructor
  · intro found
    rw [locate] at found
    split at found
    · cases found
    · next nonempty =>
        split at found
        · cases found
        · next noNul =>
            split at found
            · cases found
            · next short =>
                exact ⟨⟨Bool.eq_false_iff.2 nonempty, Bool.eq_false_iff.2 noNul,
                  Bool.eq_false_iff.2 short⟩, leads_of_follow found⟩
  · rintro ⟨usable, leads⟩
    rw [locate, usable.nonempty, usable.noNul, usable.short]
    exact follow_of_leads leads

/-- What stands at a path, whether or not a link at its end is followed. -/
theorem locate_bind_eq_ok_iff {followLast : Bool} :
    (tree.locate followLast path >>= fun location =>
      match location.entry with
      | some entry => pure entry
      | none => .error .notFound) = .ok entry ↔
      IsUsable path ∧ ∃ place, Leads tree.root followLast maxLinks (tree.start path)
        (Path.segments path) ⟨place, some entry⟩ := by
  rw [Outcome.bind_eq_ok_iff]
  constructor
  · rintro ⟨⟨place, held⟩, located, given⟩
    cases held with
    | none => cases given
    | some other =>
        cases given
        rcases locate_eq_ok_iff.1 located with ⟨usable, leads⟩
        exact ⟨usable, place, leads⟩
  · rintro ⟨usable, place, leads⟩
    exact ⟨⟨place, some entry⟩, locate_eq_ok_iff.2 ⟨usable, leads⟩, rfl⟩

theorem stat_eq_ok_iff :
    tree.stat path = .ok entry ↔
      IsUsable path ∧ ∃ place, Leads tree.root true maxLinks (tree.start path)
        (Path.segments path) ⟨place, some entry⟩ :=
  locate_bind_eq_ok_iff

theorem statLink_eq_ok_iff :
    tree.statLink path = .ok entry ↔
      IsUsable path ∧ ∃ place, Leads tree.root false maxLinks (tree.start path)
        (Path.segments path) ⟨place, some entry⟩ :=
  locate_bind_eq_ok_iff

theorem isFile_eq_true_iff :
    tree.isFile path = true ↔ ∃ content, tree.stat path = .ok (.file content) := by
  rw [isFile]
  cases tree.stat path with
  | error fault => simp [Except.toOption]
  | ok entry => cases entry <;> simp [Except.toOption, FileEntry.isFile]

theorem read_eq_ok_iff {content : Bytes} :
    tree.read path = .ok content ↔ tree.stat path = .ok (.file content) := by
  rw [read, Outcome.bind_eq_ok_iff]
  constructor
  · rintro ⟨entry, found, given⟩
    cases entry with
    | file held =>
        cases given
        exact found
    | link target => cases given
    | folder members => cases given
  · intro found
    exact ⟨.file content, found, rfl⟩

/-- A path at which a folder stands leads to the folder. -/
theorem stat_of_statLink {members : List (String × FileEntry)}
    (stands : tree.statLink path = .ok (.folder members)) :
    tree.stat path = .ok (.folder members) := by
  rcases statLink_eq_ok_iff.1 stands with ⟨usable, place, leads⟩
  exact stat_eq_ok_iff.2 ⟨usable, place, leads.toFolder rfl⟩

end FileTree

end ApiCoverage
