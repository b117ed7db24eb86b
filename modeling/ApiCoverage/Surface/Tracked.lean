import ApiCoverage.MethodKey
import ApiCoverage.Ordered.Map
import ApiCoverage.Ordered.Set
import ApiCoverage.Report
import ApiCoverage.TypeKind

/-!
# Tracked surfaces

The surfaces of a scan, each with the keys of the methods that are tracked. A method may be called
through a subtype, so a call is looked up from the type that it names upwards: the search goes
through super types depth first, in the order of their declaration, enters no surface twice, and
does not go past a type that is not tracked.
-/

namespace ApiCoverage

/-- A surface reduced to what is tracked. -/
structure TrackedSurface where
  kind : TypeKind
  supers : List String
  methods : OrderedSet MethodKey
  /-- Whether the surface declares any method, be it tracked or not. -/
  hasMembers : Bool

/-- The tracked surfaces by name. -/
structure TrackedSurfaces where
  surfaces : OrderedMap String TrackedSurface

namespace TrackedSurface

/-- Whether the surface is an annotation type. -/
def isAnnotationType (surface : TrackedSurface) : Bool :=
  surface.kind == .annotationType

end TrackedSurface

namespace TrackedSurfaces

/-- No surfaces. -/
def empty : TrackedSurfaces :=
  ⟨.empty⟩

/-- The surfaces with one more; it replaces one of the same name. -/
def insert (tracked : TrackedSurfaces) (name : String) (surface : TrackedSurface) :
    TrackedSurfaces :=
  ⟨tracked.surfaces.insert name surface⟩

/-- The surface of a name. -/
def get? (tracked : TrackedSurfaces) (name : String) : Option TrackedSurface :=
  tracked.surfaces.get? name

/-- The annotation types among the surfaces, with their names. -/
def annotationTypes (tracked : TrackedSurfaces) : List (String × TrackedSurface) :=
  tracked.surfaces.entries.filter fun entry => entry.2.isAnnotationType

/-- Whether an annotation type is tracked. -/
def hasAnnotationTypes (tracked : TrackedSurfaces) : Bool :=
  tracked.surfaces.values.any TrackedSurface.isAnnotationType

/-- Whether no method is tracked. -/
def isIdle (tracked : TrackedSurfaces) : Bool :=
  tracked.surfaces.values.all fun surface => surface.methods.isEmpty

/-- The surfaces other than the one of a name. -/
def without (name : String) (surfaces : List (String × TrackedSurface)) :
    List (String × TrackedSurface) :=
  surfaces.filter fun entry => entry.1 != name

/-- Leaving out a surface that is there makes the list shorter. -/
theorem length_without_lt {name : String} {surface : TrackedSurface}
    {surfaces : List (String × TrackedSurface)} (found : surfaces.lookup name = some surface) :
    (without name surfaces).length < surfaces.length := by
  refine List.length_filter_lt_length_iff_exists.2 ⟨(name, surface), ?_, by simp⟩
  induction surfaces with
  | nil => simp at found
  | cons head rest ih =>
      obtain ⟨other, value⟩ := head
      rw [List.lookup_cons] at found
      split at found
      · next same =>
          cases eq_of_beq same
          cases found
          exact List.mem_cons_self
      · exact List.mem_cons_of_mem _ (ih found)

/-- The first surface that tracks a method: `fresh` holds the surfaces that the search has not
entered, and the names still to visit come nearest first. -/
def search (key : MethodKey) (fresh : List (String × TrackedSurface)) :
    List String → Option String
  | [] => none
  | name :: others =>
      match _found : fresh.lookup name with
      | none => search key fresh others
      | some surface =>
          if surface.methods.contains key then some name
          else search key (without name fresh) (surface.supers ++ others)
  termination_by names => (fresh.length, names.length)
  decreasing_by
    · exact Prod.Lex.right _ (by simp)
    · exact Prod.Lex.left _ _ (length_without_lt _found)

/-- The surface that tracks a method which is called on a type. -/
def declarer? (tracked : TrackedSurfaces) (owner : String) (key : MethodKey) : Option String :=
  search key tracked.surfaces.entries [owner]

/-- The report with a key for every tracked method. -/
def seedReport (tracked : TrackedSurfaces) : CoverageReport :=
  tracked.surfaces.entries.foldl
    (fun report (name, surface) =>
      surface.methods.elements.foldl (fun report key => report.seed name key)
        (report.seedSurface name))
    .empty

end TrackedSurfaces

end ApiCoverage
