import ApiCoverage.Proofs.Surface.Ascent

/-!
# The order in which surfaces are searched

The search for the declarer of a method keeps a list of names that are still to be visited. What it computes
is said without such a list by a recursive traversal: at a surface that was not entered before, it goes
through the super types of the surface, in the order of their declaration, before it goes on with what stands
beside the surface. The search answers with the first surface that this traversal enters and that tracks the
method. A lookup with a stack and a set of visited names, which pushes the super types in reverse order and
counts a name as visited when it takes it from the stack, answers the same.
-/

namespace ApiCoverage.TrackedSurfaces

/-! ## The recursive traversal -/

/-- A depth-first traversal through some names enters surfaces, in order, when it has entered those in `seen`
before. A name that was entered before, or that is not tracked, is passed over. -/
inductive Traverses (tracked : TrackedSurfaces) : List String → List String → List String → Prop where
  | done (seen : List String) : Traverses tracked seen [] []
  | again {seen others order : List String} {name : String} (entered : name ∈ seen)
      (later : Traverses tracked seen others order) : Traverses tracked seen (name :: others) order
  | untracked {seen others order : List String} {name : String} (unknown : tracked.get? name = none)
      (later : Traverses tracked seen others order) : Traverses tracked seen (name :: others) order
  | enter {seen others above beside : List String} {name : String} {surface : TrackedSurface}
      (fresh : name ∉ seen) (known : tracked.get? name = some surface)
      (ascent : Traverses tracked (seen ++ [name]) surface.supers above)
      (later : Traverses tracked (seen ++ name :: above) others beside) :
      Traverses tracked seen (name :: others) (name :: above ++ beside)

namespace Traverses

variable {tracked : TrackedSurfaces} {seen names others order first second : List String}

/-- A traversal enters the same surfaces each time. -/
theorem unique (left : Traverses tracked seen names first)
    (right : Traverses tracked seen names second) : first = second := by
  induction left generalizing second with
  | done =>
      cases right
      rfl
  | again entered _ ih =>
      cases right with
      | again _ later | untracked _ later => exact ih later
      | enter fresh => exact absurd entered fresh
  | untracked unknown _ ih =>
      cases right with
      | again _ later | untracked _ later => exact ih later
      | enter _ known =>
          rw [unknown] at known
          cases known
  | enter fresh known _ _ ihAbove ihBeside =>
      cases right with
      | again entered => exact absurd entered fresh
      | untracked unknown =>
          rw [unknown] at known
          cases known
      | enter _ other ascent later =>
          rw [known] at other
          cases other
          cases ihAbove ascent
          rw [ihBeside later]

/-- No surface is entered twice, and only tracked ones are entered. -/
theorem entersOnce (traverses : Traverses tracked seen names order) :
    order.Nodup ∧ ∀ name ∈ order, name ∉ seen ∧ (tracked.get? name).isSome = true := by
  induction traverses with
  | done => simp
  | again _ _ ih | untracked _ _ ih => exact ih
  | @enter seen others above beside name surface fresh known _ _ ihAbove ihBeside =>
      obtain ⟨aboveOnce, aboveNew⟩ := ihAbove
      obtain ⟨besideOnce, besideNew⟩ := ihBeside
      simp only [List.mem_append, List.mem_cons, List.not_mem_nil, or_false, not_or]
        at aboveNew besideNew
      constructor
      · rw [List.cons_append, List.nodup_cons, List.mem_append, not_or, List.nodup_append']
        refine ⟨⟨?_, ?_⟩, aboveOnce, besideOnce, ?_⟩
        · exact fun member => (aboveNew name member).1.2 rfl
        · exact fun member => (besideNew name member).1.2.1 rfl
        · exact fun other inside later => (besideNew other later).1.2.2 inside
      · intro other member
        rw [List.cons_append, List.mem_cons, List.mem_append] at member
        rcases member with rfl | inside | later
        · exact ⟨fresh, by rw [known]; rfl⟩
        · exact ⟨(aboveNew other inside).1.1, (aboveNew other inside).2⟩
        · exact ⟨(besideNew other later).1.1, (besideNew other later).2⟩

/-- A traversal through two lists, one behind the other. -/
theorem append (front : Traverses tracked seen names first)
    (back : Traverses tracked (seen ++ first) others second) :
    Traverses tracked seen (names ++ others) (first ++ second) := by
  induction front with
  | done => simpa using back
  | again entered _ ih => exact .again entered (ih back)
  | untracked unknown _ ih => exact .untracked unknown (ih back)
  | enter fresh known ascent _ _ ih =>
      rw [List.append_assoc]
      refine .enter fresh known ascent (ih ?_)
      simpa using back

theorem split_nil (traverses : Traverses tracked seen others order) :
    ∃ first second, Traverses tracked seen [] first ∧
      Traverses tracked (seen ++ first) others second :=
  ⟨[], order, .done seen, by simpa using traverses⟩

/-- A traversal through two lists goes through the first and then through the second. -/
theorem split (traverses : Traverses tracked seen (names ++ others) order) :
    ∃ first second, Traverses tracked seen names first ∧
      Traverses tracked (seen ++ first) others second := by
  generalize whole : names ++ others = list at traverses
  induction traverses generalizing names with
  | done seen =>
      obtain ⟨rfl, rfl⟩ := List.append_eq_nil_iff.1 whole
      exact split_nil (.done seen)
  | @again seen rest order name entered later ih =>
      cases names with
      | nil =>
          obtain rfl : others = name :: rest := whole
          exact split_nil (.again entered later)
      | cons head tail =>
          cases whole
          obtain ⟨first, second, front, back⟩ := ih rfl
          exact ⟨first, second, .again entered front, back⟩
  | @untracked seen rest order name unknown later ih =>
      cases names with
      | nil =>
          obtain rfl : others = name :: rest := whole
          exact split_nil (.untracked unknown later)
      | cons head tail =>
          cases whole
          obtain ⟨first, second, front, back⟩ := ih rfl
          exact ⟨first, second, .untracked unknown front, back⟩
  | @enter seen rest above beside name surface fresh known ascent later _ ih =>
      cases names with
      | nil =>
          obtain rfl : others = name :: rest := whole
          exact split_nil (.enter fresh known ascent later)
      | cons head tail =>
          cases whole
          obtain ⟨first, second, front, back⟩ := ih rfl
          exact ⟨name :: above ++ first, second, .enter fresh known ascent front, by simpa using back⟩

end Traverses

/-! ## The search follows the traversal -/

variable {tracked : TrackedSurfaces} {key : MethodKey} {fresh : List (String × TrackedSurface)}
  {seen names order : List String} {name : String} {surface : TrackedSurface}

/-- What is still fresh is what is tracked and was not visited. -/
def Leaves (tracked : TrackedSurfaces) (visited : List String)
    (fresh : List (String × TrackedSurface)) : Prop :=
  ∀ name, fresh.lookup name = if name ∈ visited then none else tracked.get? name

theorem leaves_entries (tracked : TrackedSurfaces) : tracked.Leaves [] tracked.surfaces.entries := by
  intro name
  rw [lookup_entries_eq_get?, if_neg List.not_mem_nil]

theorem Leaves.lookup_eq_some_iff (leaves : tracked.Leaves seen fresh) :
    fresh.lookup name = some surface ↔ name ∉ seen ∧ tracked.get? name = some surface := by
  rw [leaves name]
  by_cases visited : name ∈ seen
  · simp [visited]
  · simp [visited]

/-- Visiting a surface leaves the others. -/
theorem Leaves.without {visited : List String} (leaves : tracked.Leaves seen fresh)
    (same : ∀ other, other ∈ visited ↔ other = name ∨ other ∈ seen) :
    tracked.Leaves visited (without name fresh) := by
  intro other
  rw [lookup_without, leaves other]
  by_cases left : other = name
  · simp [left, (same name).2 (.inl rfl)]
  · simp [left, same]

/-- Visiting an untracked name leaves all surfaces. -/
theorem Leaves.cons (leaves : tracked.Leaves seen fresh) (unknown : tracked.get? name = none) :
    tracked.Leaves (name :: seen) fresh := by
  intro other
  rw [leaves other]
  by_cases left : other = name
  · simp [left, unknown]
  · simp [left]

/-- Whether the surface of a name tracks a method. -/
def tracksKey (tracked : TrackedSurfaces) (key : MethodKey) (name : String) : Bool :=
  (tracked.get? name).any fun surface => surface.methods.contains key

theorem tracksKey_of_get? (known : tracked.get? name = some surface) :
    tracked.tracksKey key name = surface.methods.contains key := by
  rw [tracksKey, known]
  rfl

/-- A traversal of what is fresh is there for every list of names. -/
theorem Leaves.exists_traverses {fresh : List (String × TrackedSurface)} {seen : List String}
    (leaves : tracked.Leaves seen fresh) :
    (names : List String) → ∃ order, Traverses tracked seen names order
  | [] => ⟨[], .done seen⟩
  | name :: others => by
      cases known : fresh.lookup name with
      | none =>
          obtain ⟨order, later⟩ := leaves.exists_traverses others
          by_cases entered : name ∈ seen
          · exact ⟨order, .again entered later⟩
          · have unknown := leaves name
            rw [known, if_neg entered] at unknown
            exact ⟨order, .untracked unknown.symm later⟩
      | some surface =>
          have shorter := length_without_lt known
          obtain ⟨new, there⟩ := leaves.lookup_eq_some_iff.1 known
          have left : tracked.Leaves (seen ++ [name]) (TrackedSurfaces.without name fresh) :=
            leaves.without (by simp [or_comm])
          obtain ⟨order, traverses⟩ := left.exists_traverses (surface.supers ++ others)
          obtain ⟨above, beside, ascent, later⟩ := traverses.split
          exact ⟨_, .enter new there ascent (by simpa using later)⟩
  termination_by names => (fresh.length, names.length)

/-- The search answers with the first surface of the traversal that tracks the method. -/
theorem Traverses.search_eq (traverses : Traverses tracked seen names order)
    (leaves : tracked.Leaves seen fresh) :
    search key fresh names = order.find? (tracked.tracksKey key) := by
  -- The search goes through the super types and the other names as one list, hence by its own recursion.
  fun_induction search key fresh names generalizing seen order with
  | case1 fresh =>
      cases traverses
      rfl
  | case2 fresh name others unknown ih =>
      cases traverses with
      | again _ later | untracked _ later => exact ih later leaves
      | enter new known =>
          rw [leaves.lookup_eq_some_iff.2 ⟨new, known⟩] at unknown
          cases unknown
  | case3 fresh name others surface found tracks =>
      obtain ⟨new, known⟩ := leaves.lookup_eq_some_iff.1 found
      cases traverses with
      | again entered => exact absurd entered new
      | untracked unknown =>
          rw [known] at unknown
          cases unknown
      | enter =>
          rw [List.cons_append, List.find?_cons_of_pos]
          rw [tracksKey_of_get? known, tracks]
  | case4 fresh name others surface found skips ih =>
      obtain ⟨new, known⟩ := leaves.lookup_eq_some_iff.1 found
      cases traverses with
      | again entered => exact absurd entered new
      | untracked unknown =>
          rw [known] at unknown
          cases unknown
      | enter _ other ascent later =>
          rw [known] at other
          cases other
          rw [List.cons_append, List.find?_cons_of_neg]
          · refine ih (ascent.append ?_) (leaves.without (by simp [or_comm]))
            simpa using later
          · rwa [tracksKey_of_get? known]

/-! ## Lookups with a stack -/

/-- A lookup under way: the names that it has visited, and the stack, whose top is at its end. -/
structure Lookup where
  visited : List String
  stack : List String
  deriving DecidableEq, Repr

namespace Lookup

/-- What one round of a lookup comes to. -/
inductive Round where
  | exhausted
  | found (name : String)
  | continues (next : Lookup)

/-- One round of a lookup: it takes a name from the stack, and unless the name was visited before or is not
tracked, the search ends there or the super types go onto the stack in reverse order. -/
def round (tracked : TrackedSurfaces) (key : MethodKey) (lookup : Lookup) : Round :=
  match lookup.stack.getLast? with
  | none => .exhausted
  | some current =>
      let stack := lookup.stack.dropLast
      if current ∈ lookup.visited then .continues { lookup with stack }
      else
        let visited := current :: lookup.visited
        match tracked.get? current with
        | none => .continues ⟨visited, stack⟩
        | some surface =>
            if surface.methods.contains key then .found current
            else .continues ⟨visited, stack ++ surface.supers.reverse⟩

/-- A lookup comes to its end with an answer, round by round. -/
inductive Answers (tracked : TrackedSurfaces) (key : MethodKey) : Lookup → Option String → Prop where
  | exhausted {lookup : Lookup} (ends : lookup.round tracked key = .exhausted) :
      Answers tracked key lookup none
  | found {lookup : Lookup} {name : String} (ends : lookup.round tracked key = .found name) :
      Answers tracked key lookup (some name)
  | continues {lookup next : Lookup} {answer : Option String}
      (moves : lookup.round tracked key = .continues next) (later : Answers tracked key next answer) :
      Answers tracked key lookup answer

variable {visited stack : List String}

theorem round_of_visited (known : name ∈ visited) :
    round tracked key ⟨visited, stack ++ [name]⟩ = .continues ⟨visited, stack⟩ := by
  simp [round, known]

theorem round_of_untracked (new : name ∉ visited) (unknown : tracked.get? name = none) :
    round tracked key ⟨visited, stack ++ [name]⟩ = .continues ⟨name :: visited, stack⟩ := by
  simp [round, new, unknown]

theorem round_of_tracked (new : name ∉ visited) (known : tracked.get? name = some surface) :
    round tracked key ⟨visited, stack ++ [name]⟩ =
      if surface.methods.contains key then .found name
      else .continues ⟨name :: visited, stack ++ surface.supers.reverse⟩ := by
  simp [round, new, known]

/-- A lookup has one answer only. -/
theorem Answers.unique {lookup : Lookup} {first second : Option String}
    (left : Answers tracked key lookup first) (right : Answers tracked key lookup second) :
    first = second := by
  induction left generalizing second with
  | exhausted ends =>
      cases right with
      | exhausted => rfl
      | found other | continues other =>
          rw [ends] at other
          cases other
  | found ends =>
      cases right with
      | found other =>
          rw [ends] at other
          cases other
          rfl
      | exhausted other | continues other =>
          rw [ends] at other
          cases other
  | continues moves _ ih =>
      cases right with
      | exhausted other | found other =>
          rw [moves] at other
          cases other
      | continues other later =>
          rw [moves] at other
          cases other
          exact ih later

/-- A lookup whose stack holds the names that are still to be visited, the next one on top, answers as the
search does. -/
theorem answers_search (leaves : tracked.Leaves visited fresh) :
    Answers tracked key ⟨visited, names.reverse⟩ (search key fresh names) := by
  fun_induction search key fresh names generalizing visited with
  | case1 fresh => exact .exhausted rfl
  | case2 fresh name others unknown ih =>
      rw [List.reverse_cons]
      by_cases known : name ∈ visited
      · exact .continues (round_of_visited known) (ih leaves)
      · have untracked := leaves name
        rw [unknown, if_neg known] at untracked
        exact .continues (round_of_untracked known untracked.symm) (ih (leaves.cons untracked.symm))
  | case3 fresh name others surface found tracks =>
      obtain ⟨new, known⟩ := leaves.lookup_eq_some_iff.1 found
      rw [List.reverse_cons]
      apply Answers.found
      rw [round_of_tracked new known, if_pos tracks]
  | case4 fresh name others surface found skips ih =>
      obtain ⟨new, known⟩ := leaves.lookup_eq_some_iff.1 found
      have later := ih (leaves.without fun other => List.mem_cons)
      rw [List.reverse_append] at later
      rw [List.reverse_cons]
      apply Answers.continues _ later
      rw [round_of_tracked new known, if_neg skips]

end Lookup

/-- A call leads to the first surface that tracks the method in the order of the depth-first traversal which
starts at the type of the call. There is one such traversal; it goes through super types in the order of
their declaration, enters no surface twice and passes over what is not tracked. A lookup with a stack and a
set of visited names has this answer, and no other. -/
theorem declarer?_eq_first_of_preorder (tracked : TrackedSurfaces) (owner : String) (key : MethodKey) :
    ∃ order, Traverses tracked [] [owner] order ∧
      (∀ other, Traverses tracked [] [owner] other → other = order) ∧
      order.Nodup ∧ (∀ name ∈ order, (tracked.get? name).isSome = true) ∧
      tracked.declarer? owner key = order.find? (tracked.tracksKey key) ∧
      ∀ answer, Lookup.Answers tracked key ⟨[], [owner]⟩ answer ↔
        answer = order.find? (tracked.tracksKey key) := by
  have leaves := leaves_entries tracked
  obtain ⟨order, traverses⟩ := leaves.exists_traverses [owner]
  have found : tracked.declarer? owner key = order.find? (tracked.tracksKey key) :=
    traverses.search_eq leaves
  have answers : Lookup.Answers tracked key ⟨[], [owner].reverse⟩ (tracked.declarer? owner key) :=
    Lookup.answers_search leaves
  rw [found] at answers
  refine ⟨order, traverses, fun other again => again.unique traverses, traverses.entersOnce.1,
    fun name member => (traverses.entersOnce.2 name member).2, found, fun answer => ?_⟩
  constructor
  · exact fun other => other.unique answers
  · rintro rfl
    exact answers

/-- Super types that are reached in several ways. -/
def diamond : TrackedSurfaces :=
  let surface (supers : List String) (methods : List MethodKey) : TrackedSurface :=
    ⟨.interfaceType, supers, .ofList methods, true⟩
  ((((empty.insert "Class" (surface ["Left", "Right"] [])).insert
    "Left" (surface ["Right", "Side"] [])).insert
    "Right" (surface ["Top", "Side"] [])).insert
    "Side" (surface ["Class"] [⟨"run", "()V"⟩])).insert
    "Top" (surface [] [⟨"run", "()V"⟩])

/-- A surface is entered at its first turn, also where it was listed before, and its first super type comes
before the others. -/
example : diamond.declarer? "Class" ⟨"run", "()V"⟩ = some "Top" := by
  cbv

end ApiCoverage.TrackedSurfaces
