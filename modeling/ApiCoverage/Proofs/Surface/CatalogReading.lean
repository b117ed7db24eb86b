import ApiCoverage.Proofs.Outcome
import ApiCoverage.Proofs.Surface.Declared
import ApiCoverage.Proofs.Surface.TypeNames
import ApiCoverage.Proofs.Text.Trimming

/-!
# What reading a declaration file does to the catalog

Each part of a declaration file, a method or a surface, either stands for a declaration or is refused
for a reason, and both are described by the part alone. A file that is no document of the right shape, or
that names a surface twice, leaves the catalog alone. Otherwise its surfaces are inserted up to the first
that is refused. The description fixes the outcome and the catalog that is left.
-/

namespace ApiCoverage

open ClassFile (Access MethodDecl)
open JvmType (parseSourceName)
open Text (isBlank)

variable {path : Path} {failure : Failure}

/-! ## Methods -/

namespace DeclaredAccess

/-- The flag word of a declared access and of nothing else. One bit tells that every class may use the
declaration, one that only its own class may, and one that subclasses and the package may; a declaration
for the package alone has none of them. -/
inductive HasFlagWord : DeclaredAccess → UInt16 → Prop where
  | everyClass : HasFlagWord .publicAccess 0x0001
  | ownClass : HasFlagWord .privateAccess 0x0002
  | subclasses : HasFlagWord .protectedAccess 0x0004
  | packageAlone : HasFlagWord .packageAccess 0x0000

theorem hasFlagWord_iff {declared : DeclaredAccess} {access : Access} :
    declared.HasFlagWord access.bits ↔ access = declared.flags := by
  constructor
  · rcases access with ⟨bits⟩
    rintro (_ | _ | _ | _) <;> rfl
  · rintro rfl
    cases declared with
    | publicAccess => exact .everyClass
    | protectedAccess => exact .subclasses
    | packageAccess => exact .packageAlone
    | privateAccess => exact .ownClass

end DeclaredAccess

namespace DeclaredMethod

variable {params : List String} {returns : Option String} {descriptor surface : String}
  {fault : Descriptor.Fault} {method : DeclaredMethod} {decl : MethodDecl}

theorem sourceDescriptor_eq_error_of_behind {name : String}
    (first : Behind IsTypeName (params ++ returns.toList) name)
    (refused : parseSourceName name = .error fault) :
    sourceDescriptor params returns = .error fault := by
  obtain ⟨before, after, split, typeNames⟩ := first
  apply sourceDescriptor_eq_error
  rw [split, sourceTypes_append_cons typeNames refused]

theorem sourceDescriptor_eq_ok_iff :
    sourceDescriptor params returns = .ok descriptor ↔
      ∃ signature, NamesSignature params returns signature ∧
        descriptor = Descriptor.encode signature := by
  constructor
  · intro built
    rcases Outcome.all_or_behind parseSourceName (params ++ returns.toList) with
      typeNames | ⟨name, fault, first, refused⟩
    · obtain ⟨signature, names⟩ := exists_namesSignature typeNames
      rw [names.sourceDescriptor_eq] at built
      exact ⟨signature, names, (Except.ok.inj built).symm⟩
    · rw [sourceDescriptor_eq_error_of_behind first refused] at built
      cases built
  · rintro ⟨signature, names, rfl⟩
    exact names.sourceDescriptor_eq

theorem sourceDescriptor_eq_error_iff :
    sourceDescriptor params returns = .error fault ↔
      ∃ name, Behind IsTypeName (params ++ returns.toList) name ∧
        parseSourceName name = .error fault := by
  constructor
  · intro failed
    rcases Outcome.all_or_behind parseSourceName (params ++ returns.toList) with
      typeNames | ⟨name, other, first, refused⟩
    · obtain ⟨signature, names⟩ := exists_namesSignature typeNames
      rw [names.sourceDescriptor_eq] at failed
      cases failed
    · rw [sourceDescriptor_eq_error_of_behind first refused] at failed
      cases failed
      exact ⟨name, first, refused⟩
  · rintro ⟨name, first, refused⟩
    exact sourceDescriptor_eq_error_of_behind first refused

/-- The descriptor of a declared method: the one that is given, or the one of the signature that its
type names stand for. -/
inductive Describes (method : DeclaredMethod) : String → Prop where
  | given {descriptor : String} (literal : method.descriptor = some descriptor)
      (params : method.params = none) (returns : method.returns = none) : Describes method descriptor
  | named {signature : Signature} (absent : method.descriptor = none)
      (names : NamesSignature (method.params.getD []) method.returns signature) :
      Describes method (Descriptor.encode signature)

/-- The declaration that a declared method stands for. -/
structure Declares (method : DeclaredMethod) (decl : MethodDecl) : Prop where
  name : decl.name = method.name
  descriptor : method.Describes decl.descriptor
  access : method.access.HasFlagWord decl.access.bits
  deprecated : decl.deprecated = method.deprecated
  bare : decl.annotations = [] ∧ decl.parameterAnnotations = [] ∧ decl.body = none

/-- Why a declared method is refused: it gives its types in both ways, or the first of its type names
that is none is in the way. -/
inductive Refuses (path : Path) (surface : String) (method : DeclaredMethod) : Failure → Prop where
  | twice (given : method.descriptor.isSome = true)
      (types : method.params.isSome = true ∨ method.returns.isSome = true) :
      Refuses path surface method (.manifest path (.typesTwice surface method.name))
  | unnamed {name : String} {fault : Descriptor.Fault} (absent : method.descriptor = none)
      (first : Behind IsTypeName (method.params.getD [] ++ method.returns.toList) name)
      (refused : parseSourceName name = .error fault) :
      Refuses path surface method (.descriptor surface method.name fault)

theorem declares_iff :
    method.Declares decl ↔ ∃ descriptor, method.Describes descriptor ∧
      decl = { name := method.name, descriptor, access := method.access.flags,
               deprecated := method.deprecated } := by
  constructor
  · intro declares
    refine ⟨decl.descriptor, declares.descriptor, ?_⟩
    cases decl
    obtain ⟨rfl, -, access, rfl, rfl, rfl, rfl⟩ := declares
    rw [← DeclaredAccess.hasFlagWord_iff.1 access]
  · rintro ⟨descriptor, describes, rfl⟩
    exact ⟨rfl, describes, DeclaredAccess.hasFlagWord_iff.2 rfl, rfl, rfl, rfl, rfl⟩

theorem describes_iff_of_given {given : String} (literal : method.descriptor = some given) :
    method.Describes descriptor ↔ descriptor = given ∧ method.params = none ∧ method.returns = none := by
  constructor
  · rintro (⟨same, params, returns⟩ | ⟨absent, _⟩)
    · exact ⟨Option.some.inj (same.symm.trans literal), params, returns⟩
    · cases absent.symm.trans literal
  · rintro ⟨rfl, params, returns⟩
    exact .given literal params returns

theorem describes_iff_of_absent (absent : method.descriptor = none) :
    method.Describes descriptor ↔
      sourceDescriptor (method.params.getD []) method.returns = .ok descriptor := by
  rw [sourceDescriptor_eq_ok_iff]
  constructor
  · rintro (⟨literal, _, _⟩ | ⟨_, names⟩)
    · cases absent.symm.trans literal
    · exact ⟨_, names, rfl⟩
  · rintro ⟨signature, names, rfl⟩
    exact .named absent names

/-- A declared method has a declaration exactly if it stands for it. -/
theorem toDecl_eq_ok_iff (path : Path) (surface : String) :
    method.toDecl path surface = .ok decl ↔ method.Declares decl := by
  rw [declares_iff, toDecl]
  cases literal : method.descriptor with
  | some given =>
      simp only [describes_iff_of_given literal]
      by_cases types : method.params = none ∧ method.returns = none
      · simp [types, eq_comm]
      · have both : (method.params.isSome || method.returns.isSome) = true := by
          rw [Bool.or_eq_true, Option.isSome_iff_ne_none, Option.isSome_iff_ne_none]
          exact not_and_or.1 types
        simp [both, types]
  | none =>
      simp only [describes_iff_of_absent literal]
      cases sourceDescriptor (method.params.getD []) method.returns with
      | ok descriptor => simp [eq_comm]
      | error fault => simp

/-- A declared method is refused for its first reason. -/
theorem toDecl_eq_error_iff :
    method.toDecl path surface = .error failure ↔ method.Refuses path surface failure := by
  rw [toDecl]
  constructor
  · intro failed
    split at failed
    · next given literal =>
        split at failed
        · next both =>
            cases failed
            exact .twice (by simp [literal]) (by simpa using both)
        · cases failed
    · next absent =>
        split at failed
        · cases failed
        · next fault built =>
            cases failed
            obtain ⟨name, first, refused⟩ := sourceDescriptor_eq_error_iff.1 built
            exact .unnamed absent first refused
  · rintro (⟨given, types⟩ | ⟨absent, first, refused⟩)
    · obtain ⟨descriptor, literal⟩ := Option.isSome_iff_exists.1 given
      have both : (method.params.isSome || method.returns.isSome) = true := by simpa using types
      simp [literal, both]
    · rw [absent]
      simp [sourceDescriptor_eq_error_of_behind first refused]

end DeclaredMethod

/-! ## Surfaces -/

namespace DeclaredSurface

variable {surface : DeclaredSurface} {decl : SurfaceDecl}

/-- The declaration that a declared surface stands for: its name is not blank, and its methods stand for
the declared methods in the order of the file. -/
structure Declares (surface : DeclaredSurface) (decl : SurfaceDecl) : Prop where
  named : ∃ char ∈ surface.name.toList, isBlank char = false
  kind : decl.kind = surface.kind
  supers : decl.supers = surface.supers
  methods : List.Forall₂ DeclaredMethod.Declares surface.methods decl.methods

/-- Why a declared surface is refused: its name is blank, or the first of its methods that is refused is
in the way. -/
inductive Refuses (path : Path) (surface : DeclaredSurface) : Failure → Prop where
  | blank (blank : ∀ char ∈ surface.name.toList, isBlank char = true) :
      Refuses path surface (.manifest path .blankSurface)
  | method {method : DeclaredMethod} {failure : Failure}
      (named : ∃ char ∈ surface.name.toList, isBlank char = false)
      (first : Behind (fun earlier => ∃ decl, earlier.Declares decl) surface.methods method)
      (refuses : method.Refuses path surface.name failure) : Refuses path surface failure

theorem methodDecls_eq_ok_iff {name : String} {methods : List DeclaredMethod}
    {decls : List MethodDecl} :
    methodDecls path name methods = .ok decls ↔
      List.Forall₂ DeclaredMethod.Declares methods decls := by
  induction methods generalizing decls with
  | nil => simp [methodDecls, eq_comm]
  | cons method rest ih =>
      rw [methodDecls, List.forall₂_cons_left_iff]
      simp only [← DeclaredMethod.toDecl_eq_ok_iff path name, ← ih]
      cases method.toDecl path name with
      | error failure => simp
      | ok decl => simp [Outcome.map_eq_ok_iff]

theorem methodDecls_eq_error_iff {name : String} {methods : List DeclaredMethod} :
    methodDecls path name methods = .error failure ↔
      ∃ method, Behind (fun earlier => ∃ decl, earlier.Declares decl) methods method ∧
        method.Refuses path name failure := by
  induction methods with
  | nil => simp [methodDecls, not_behind_nil]
  | cons method rest ih =>
      simp only [behind_cons_iff, ← DeclaredMethod.toDecl_eq_ok_iff path name,
        ← DeclaredMethod.toDecl_eq_error_iff] at ih ⊢
      rw [methodDecls]
      cases read : method.toDecl path name with
      | error other => simp [read]
      | ok decl =>
          simp only [Outcome.map_eq_error_iff, ih, Except.ok.injEq, exists_eq', true_and]
          constructor
          · rintro ⟨later, first, refuses⟩
            exact ⟨later, .inr first, refuses⟩
          · rintro ⟨later, rfl | first, refuses⟩
            · cases read.symm.trans refuses
            · exact ⟨later, first, refuses⟩

/-- A declared surface has a declaration exactly if it stands for it. -/
theorem toDecl_eq_ok_iff (path : Path) : surface.toDecl path = .ok decl ↔ surface.Declares decl := by
  rw [toDecl]
  split
  · next blank =>
      rw [Text.isEmpty_trim_iff] at blank
      constructor
      · intro built
        cases built
      · intro declares
        obtain ⟨char, member, solid⟩ := declares.named
        cases (blank char member).symm.trans solid
  · next named =>
      rw [Text.isEmpty_trim_iff] at named
      push Not at named
      simp only [Outcome.map_eq_ok_iff, methodDecls_eq_ok_iff]
      constructor
      · rintro ⟨methods, declared, rfl⟩
        exact ⟨by simpa using named, rfl, rfl, declared⟩
      · rintro ⟨_, kind, supers, declared⟩
        refine ⟨decl.methods, declared, ?_⟩
        rw [← kind, ← supers]

/-- A declared surface is refused for its first reason. -/
theorem toDecl_eq_error_iff : surface.toDecl path = .error failure ↔ surface.Refuses path failure := by
  rw [toDecl]
  split
  · next blank =>
      rw [Text.isEmpty_trim_iff] at blank
      constructor
      · intro same
        cases same
        exact .blank blank
      · rintro (_ | ⟨⟨char, member, solid⟩, _⟩)
        · rfl
        · cases (blank char member).symm.trans solid
  · next named =>
      rw [Text.isEmpty_trim_iff] at named
      push Not at named
      simp only [Outcome.map_eq_error_iff, methodDecls_eq_error_iff]
      constructor
      · rintro ⟨method, first, refuses⟩
        exact .method (by simpa using named) first refuses
      · rintro (blank | ⟨_, first, refuses⟩)
        · obtain ⟨char, member, solid⟩ := named
          exact absurd (blank char member) solid
        · exact ⟨_, first, refuses⟩

theorem repeatedName?_eq_none_iff {seen : List String} {surfaces : List DeclaredSurface} :
    repeatedName? seen surfaces = none ↔
      (surfaces.map name).Nodup ∧ ∀ fresh ∈ surfaces.map name, fresh ∉ seen := by
  induction surfaces generalizing seen with
  | nil => simp [repeatedName?]
  | cons surface rest ih =>
      rw [repeatedName?]
      split
      · next met => simpa using fun _ _ fresh => absurd (by simpa using met) fresh
      · next fresh =>
          have unseen : surface.name ∉ seen := by simpa using fresh
          rw [ih, List.map_cons, List.nodup_cons]
          simp only [List.mem_cons, not_or, forall_eq_or_imp, forall_and]
          constructor
          · rintro ⟨distinct, differs, others⟩
            exact ⟨⟨fun member => differs _ member rfl, distinct⟩, unseen, others⟩
          · rintro ⟨⟨absent, distinct⟩, _, others⟩
            exact ⟨distinct, fun other member same => absent (same ▸ member), others⟩

/-- The name that is reported is the first to occur again, or to be among the seen names. -/
theorem repeatedName?_eq_some_iff {seen : List String} {surfaces : List DeclaredSurface}
    {repeated : String} :
    repeatedName? seen surfaces = some repeated ↔
      ∃ before after, surfaces.map name = before ++ repeated :: after ∧ before.Nodup ∧
        (∀ fresh ∈ before, fresh ∉ seen) ∧ (repeated ∈ seen ∨ repeated ∈ before) := by
  induction surfaces generalizing seen with
  | nil => simp [repeatedName?]
  | cons surface rest ih =>
      rw [repeatedName?, List.map_cons]
      by_cases met : surface.name ∈ seen
      · rw [if_pos (by simpa using met)]
        constructor
        · intro same
          cases same
          exact ⟨[], rest.map name, rfl, .nil, by simp, .inl met⟩
        · rintro ⟨before, after, split, _, unseen, _⟩
          cases before with
          | nil => rw [(List.cons.inj split).1]
          | cons first before =>
              cases (List.cons.inj split).1
              exact absurd met (unseen _ List.mem_cons_self)
      · rw [if_neg (by simpa using met), ih]
        constructor
        · rintro ⟨before, after, split, distinct, unseen, again⟩
          refine ⟨surface.name :: before, after, by rw [split]; rfl, ?_, ?_, ?_⟩
          · exact List.nodup_cons.2 ⟨fun member => unseen _ member List.mem_cons_self, distinct⟩
          · rw [List.forall_mem_cons]
            exact ⟨met, fun fresh member seen => unseen fresh member (List.mem_cons_of_mem _ seen)⟩
          · simpa [or_left_comm, or_assoc] using again
        · rintro ⟨before, after, split, distinct, unseen, again⟩
          cases before with
          | nil =>
              cases (List.cons.inj split).1
              exact absurd (again.resolve_right List.not_mem_nil) met
          | cons first before =>
              cases (List.cons.inj split).1
              rw [List.nodup_cons] at distinct
              rw [List.forall_mem_cons] at unseen
              refine ⟨before, after, (List.cons.inj split).2, distinct.2, ?_, ?_⟩
              · intro fresh member
                rw [List.mem_cons, not_or]
                exact ⟨fun same => distinct.1 (same ▸ member), unseen.2 fresh member⟩
              · simpa [or_left_comm, or_assoc] using again

theorem repeatedName?_nil_eq_none_iff {surfaces : List DeclaredSurface} :
    repeatedName? [] surfaces = none ↔ (surfaces.map name).Nodup := by
  simp [repeatedName?_eq_none_iff]

theorem repeatedName?_nil_eq_some_iff {surfaces : List DeclaredSurface} {repeated : String} :
    repeatedName? [] surfaces = some repeated ↔
      ∃ before after, surfaces.map name = before ++ repeated :: after ∧ before.Nodup ∧
        repeated ∈ before := by
  simp [repeatedName?_eq_some_iff]

end DeclaredSurface

/-! ## The catalog -/

namespace SurfaceCatalog

variable {catalog result other : SurfaceCatalog} {surfaces before after : List DeclaredSurface}
  {surface : DeclaredSurface} {count : Nat} {name text : String}

/-- A catalog is another one with the declarations of some surfaces in it: they take the place of those
with the same names, and all other names are as before. -/
structure Extends (catalog : SurfaceCatalog) (surfaces : List DeclaredSurface)
    (result : SurfaceCatalog) : Prop where
  inserted : ∀ surface ∈ surfaces, ∃ decl, surface.Declares decl ∧
    result.declared.get? surface.name = some decl ∧
      ∀ tree, result.resolve tree surface.name = .ok decl
  kept : ∀ name ∉ surfaces.map DeclaredSurface.name,
    result.declared.get? name = catalog.declared.get? name ∧
      ∀ tree, result.resolve tree name = catalog.resolve tree name
  classpath : result.classpath = catalog.classpath

theorem resolve_of_declared {decl : SurfaceDecl} (declared : catalog.declared.get? name = some decl)
    (tree : FileTree) : catalog.resolve tree name = .ok decl := by
  rw [resolve, declared]

/-- A name resolves alike in catalogs with the same declaration for it and the same classpath. -/
theorem resolve_congr (declared : result.declared.get? name = catalog.declared.get? name)
    (classpath : result.classpath = catalog.classpath) (tree : FileTree) :
    result.resolve tree name = catalog.resolve tree name := by
  rw [resolve, resolve, declared, classpath]

theorem extends_nil (catalog : SurfaceCatalog) : Extends catalog [] catalog where
  inserted := by simp
  kept name _ := ⟨rfl, fun _ => rfl⟩
  classpath := rfl

/-- One more surface is inserted in front of others with other names. -/
theorem Extends.cons {decl : SurfaceDecl} (declares : surface.Declares decl)
    (fresh : surface.name ∉ surfaces.map DeclaredSurface.name)
    (extended : Extends (catalog.insert surface.name decl) surfaces result) :
    Extends catalog (surface :: surfaces) result where
  inserted := by
    have held : result.declared.get? surface.name = some decl := by
      rw [(extended.kept surface.name fresh).1]
      exact OrderedMap.get?_insert_self
    exact List.forall_mem_cons.2
      ⟨⟨decl, declares, held, resolve_of_declared held⟩, extended.inserted⟩
  kept name absent := by
    rw [List.map_cons, List.mem_cons, not_or] at absent
    have held : result.declared.get? name = catalog.declared.get? name := by
      rw [(extended.kept name absent.2).1]
      exact OrderedMap.get?_insert_of_ne absent.1
    exact ⟨held, resolve_congr held extended.classpath⟩
  classpath := extended.classpath

/-- The surfaces and the old catalog determine the new one. -/
theorem Extends.unique (first : Extends catalog surfaces result)
    (second : Extends catalog surfaces other) : result = other := by
  have declared : result.declared = other.declared := by
    refine OrderedMap.ext_get? fun name => ?_
    by_cases named : name ∈ surfaces.map DeclaredSurface.name
    · obtain ⟨surface, member, rfl⟩ := List.mem_map.1 named
      obtain ⟨decl, declares, held, _⟩ := first.inserted surface member
      obtain ⟨twin, twinDeclares, twinHeld, _⟩ := second.inserted surface member
      rw [← DeclaredSurface.toDecl_eq_ok_iff ""] at declares twinDeclares
      cases declares.symm.trans twinDeclares
      rw [held, twinHeld]
    · rw [(first.kept name named).1, (second.kept name named).1]
  have classpath : result.classpath = other.classpath := first.classpath.trans second.classpath.symm
  cases result
  cases other
  cases declared
  cases classpath
  rfl

/-! ## Inserting surfaces -/

/-- Surfaces that have declarations are inserted before the others. -/
theorem declareAll_append (accepted : ∀ surface ∈ before, ∃ decl, surface.Declares decl) :
    declareAll path count catalog (before ++ after) =
      declareAll path (count + before.length) (declareAll path count catalog before).catalog after := by
  induction before generalizing catalog count with
  | nil => rfl
  | cons surface rest ih =>
      obtain ⟨⟨decl, declares⟩, others⟩ := List.forall_mem_cons.1 accepted
      have given := (DeclaredSurface.toDecl_eq_ok_iff path).2 declares
      simp only [List.cons_append, declareAll, given, ih others, List.length_cons]
      rw [Nat.add_right_comm, Nat.add_assoc]

theorem outcome_declareAll (accepted : ∀ surface ∈ surfaces, ∃ decl, surface.Declares decl) :
    (declareAll path count catalog surfaces).outcome = .ok (count + surfaces.length) := by
  have whole : declareAll path count catalog (surfaces ++ []) = _ := declareAll_append accepted
  rw [List.append_nil] at whole
  rw [whole]
  rfl

theorem extends_declareAll (accepted : ∀ surface ∈ surfaces, ∃ decl, surface.Declares decl)
    (distinct : (surfaces.map DeclaredSurface.name).Nodup) :
    Extends catalog surfaces (declareAll path count catalog surfaces).catalog := by
  induction surfaces generalizing catalog count with
  | nil => exact extends_nil catalog
  | cons surface rest ih =>
      obtain ⟨⟨decl, declares⟩, others⟩ := List.forall_mem_cons.1 accepted
      rw [List.map_cons, List.nodup_cons] at distinct
      have given := (DeclaredSurface.toDecl_eq_ok_iff path).2 declares
      simp only [declareAll, given]
      exact (ih others distinct.2).cons declares distinct.1

/-- What comes of reading a declaration file: the catalog that is left, and how many surfaces were read
or why the reading failed. -/
inductive ReadingOf (path : Path) (catalog : SurfaceCatalog) (text : String) : Reading → Prop where
  | malformed {fault : Toml.Fault} (rejected : DeclaredSurface.listOfText text = .error fault) :
      ReadingOf path catalog text ⟨catalog, .error (.manifest path (.malformed fault))⟩
  | repeated {surfaces : List DeclaredSurface} {name : String} {before after : List String}
      (listed : DeclaredSurface.listOfText text = .ok surfaces)
      (names : surfaces.map DeclaredSurface.name = before ++ name :: after)
      (distinct : before.Nodup) (again : name ∈ before) :
      ReadingOf path catalog text ⟨catalog, .error (.manifest path (.surfaceTwice name))⟩
  | refused {before after : List DeclaredSurface} {surface : DeclaredSurface} {failure : Failure}
      {result : SurfaceCatalog}
      (listed : DeclaredSurface.listOfText text = .ok (before ++ surface :: after))
      (distinct : ((before ++ surface :: after).map DeclaredSurface.name).Nodup)
      (extended : Extends catalog before result) (refuses : surface.Refuses path failure) :
      ReadingOf path catalog text ⟨result, .error failure⟩
  | complete {surfaces : List DeclaredSurface} {result : SurfaceCatalog}
      (listed : DeclaredSurface.listOfText text = .ok surfaces)
      (distinct : (surfaces.map DeclaredSurface.name).Nodup)
      (extended : Extends catalog surfaces result) :
      ReadingOf path catalog text ⟨result, .ok surfaces.length⟩

theorem Extends.accepted (extended : Extends catalog surfaces result) :
    ∀ surface ∈ surfaces, ∃ decl, surface.Declares decl := by
  intro surface member
  obtain ⟨decl, declares, _⟩ := extended.inserted surface member
  exact ⟨decl, declares⟩

theorem nodup_front {rest : List DeclaredSurface}
    (distinct : ((before ++ rest).map DeclaredSurface.name).Nodup) :
    (before.map DeclaredSurface.name).Nodup := by
  rw [List.map_append] at distinct
  exact distinct.of_append_left

/-- Reading inserts the surfaces in front of the first that is refused. -/
theorem declareAll_eq_of_refuses
    (distinct : ((before ++ surface :: after).map DeclaredSurface.name).Nodup)
    (extended : Extends catalog before result) (refuses : surface.Refuses path failure) :
    declareAll path count catalog (before ++ surface :: after) = ⟨result, .error failure⟩ := by
  rw [declareAll_append extended.accepted, declareAll,
    DeclaredSurface.toDecl_eq_error_iff.2 refuses]
  simp only
  rw [(extends_declareAll extended.accepted (nodup_front distinct)).unique extended]

theorem declareAll_eq_of_extends (distinct : (surfaces.map DeclaredSurface.name).Nodup)
    (extended : Extends catalog surfaces result) :
    declareAll path count catalog surfaces = ⟨result, .ok (count + surfaces.length)⟩ := by
  have left : (declareAll path count catalog surfaces).catalog = result :=
    (extends_declareAll extended.accepted distinct).unique extended
  have outcome : (declareAll path count catalog surfaces).outcome = .ok (count + surfaces.length) :=
    outcome_declareAll extended.accepted
  rw [← left, ← outcome]

/-- Reading leaves what the description says. -/
theorem readingOf_declareText (path : Path) (catalog : SurfaceCatalog) (text : String) :
    ReadingOf path catalog text (catalog.declareText path text) := by
  rw [declareText]
  cases listed : DeclaredSurface.listOfText text with
  | error fault => exact .malformed listed
  | ok surfaces =>
      simp only [declareDistinct]
      cases repeats : DeclaredSurface.repeatedName? [] surfaces with
      | some name =>
          obtain ⟨before, after, names, distinct, again⟩ :=
            DeclaredSurface.repeatedName?_nil_eq_some_iff.1 repeats
          exact .repeated listed names distinct again
      | none =>
          have distinct := DeclaredSurface.repeatedName?_nil_eq_none_iff.1 repeats
          rcases Outcome.all_or_behind (DeclaredSurface.toDecl path) surfaces with
            accepted | ⟨surface, failure, ⟨before, after, rfl, accepted⟩, refused⟩
          · simp only [DeclaredSurface.toDecl_eq_ok_iff] at accepted
            have extended : Extends catalog surfaces (declareAll path 0 catalog surfaces).catalog :=
              extends_declareAll accepted distinct
            rw [declareAll_eq_of_extends distinct extended, Nat.zero_add]
            exact .complete listed distinct extended
          · simp only [DeclaredSurface.toDecl_eq_ok_iff] at accepted
            have refuses := DeclaredSurface.toDecl_eq_error_iff.1 refused
            have extended : Extends catalog before (declareAll path 0 catalog before).catalog :=
              extends_declareAll accepted (nodup_front distinct)
            rw [declareAll_eq_of_refuses distinct extended refuses]
            exact .refused listed distinct extended refuses

/-- The outcome of reading a declaration file and the catalog that it leaves, for every file and every
catalog before. -/
theorem declareText_eq_iff {path : Path} {catalog : SurfaceCatalog} {text : String}
    {reading : Reading} :
    catalog.declareText path text = reading ↔ ReadingOf path catalog text reading := by
  constructor
  · rintro rfl
    exact readingOf_declareText path catalog text
  · intro described
    rw [declareText]
    cases described with
    | malformed rejected => rw [rejected]
    | repeated listed names distinct again =>
        have repeats := DeclaredSurface.repeatedName?_nil_eq_some_iff.2
          ⟨_, _, names, distinct, again⟩
        simp only [listed, declareDistinct, repeats]
    | refused listed distinct extended refuses =>
        have unrepeated := DeclaredSurface.repeatedName?_nil_eq_none_iff.2 distinct
        simp only [listed, declareDistinct, unrepeated]
        exact declareAll_eq_of_refuses distinct extended refuses
    | complete listed distinct extended =>
        have unrepeated := DeclaredSurface.repeatedName?_nil_eq_none_iff.2 distinct
        simp only [listed, declareDistinct, unrepeated]
        rw [declareAll_eq_of_extends distinct extended, Nat.zero_add]

end SurfaceCatalog

end ApiCoverage
