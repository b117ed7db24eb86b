import ApiCoverage.Proofs.Scan.Choice
import ApiCoverage.Proofs.Scan.Usage
import ApiCoverage.Proofs.Surface.Ascent
import ApiCoverage.Proofs.Surface.Declared

/-!
# Tracked methods that compiled code can name

The choice of surfaces checks that every descriptor can be read, but tracks it as it is spelled. A
compiled reference has the canonical spelling, so it leads to a tracked method only if the descriptor
of the method is canonical as well, which is to say that no dot was spelled out for it.
-/

namespace ApiCoverage

open ClassFile (MemberRef MethodDecl)
open Descriptor (Canonical decodeOpen encode)

theorem MethodKey.canonical_usage : Canonical usage.descriptor :=
  ⟨⟨.void, []⟩, by decide +kernel, by decide⟩

namespace TrackedSurfaces

variable {tree : FileTree} {catalog : SurfaceCatalog} {policy : ExclusionPolicy}
  {names : List String} {tracked : TrackedSurfaces} {name : String} {key : MethodKey}

/-- A tracked method is the usage key or a method that the declaration of its surface lists. -/
theorem declared_of_tracks (chosen : (track tree catalog policy names).outcome = .ok tracked)
    (tracks : tracked.Tracks name key) :
    key = .usage ∨ ∃ decl, Offers tree catalog name decl ∧
      ∃ method ∈ decl.methods, .ofDecl method = key := by
  rcases tracks with ⟨surface, found, member⟩
  rcases (get?_of_track chosen).1 found with ⟨_, decl, offers, rfl⟩
  rcases TrackedSurface.mem_methods_narrow_iff.1 member with ⟨method, listed, _, same⟩ | ⟨_, same⟩
  · exact .inr ⟨decl, offers, method, listed, same⟩
  · exact .inl same

/-- The descriptor of a tracked method can be read. -/
theorem exists_decodeOpen_of_tracks
    (chosen : (track tree catalog policy names).outcome = .ok tracked)
    (tracks : tracked.Tracks name key) : ∃ signature, decodeOpen key.descriptor = .ok signature := by
  rcases declared_of_tracks chosen tracks with rfl | ⟨decl, offers, method, listed, rfl⟩
  · rcases MethodKey.canonical_usage with ⟨signature, read, _⟩
    exact ⟨signature, read⟩
  · exact offers.2 method listed

/-- Without a classpath, only declared surfaces are there. -/
theorem Offers.get?_declared {decl : SurfaceDecl} (offers : Offers tree catalog name decl)
    (alone : catalog.classpath = []) : catalog.declared.get? name = some decl := by
  have resolved := offers.1
  rw [SurfaceCatalog.resolve] at resolved
  split at resolved
  · next found held =>
      cases resolved
      exact held
  · simp [alone] at resolved

/-- Whatever is tracked from a catalog without dots has a canonical descriptor. -/
theorem canonical_of_undotted (undotted : catalog.Undotted)
    (chosen : (track tree catalog policy names).outcome = .ok tracked)
    (tracks : tracked.Tracks name key) : Canonical key.descriptor := by
  rcases declared_of_tracks chosen tracks with rfl | ⟨decl, offers, method, listed, rfl⟩
  · exact MethodKey.canonical_usage
  · have declared := offers.get?_declared undotted.classpath_eq_nil
    rcases offers.2 method listed with ⟨signature, read⟩
    exact (Descriptor.canonical_iff_of_decodeOpen read).2
      (undotted.allDeclared name decl declared method listed)

/-- The descriptor of a tracked method can be read, and it is what is written for its signature
exactly if it holds no dot. Among the methods of a surface, one name and one signature then stand for
one method. A reference to the surface with the name and the signature, spelled without dots, leads
to the method exactly if the method is spelled without dots itself. -/
theorem canonical_iff_of_track (chosen : (track tree catalog policy names).outcome = .ok tracked)
    (tracks : tracked.Tracks name key) :
    ∃ signature, decodeOpen key.descriptor = .ok signature ∧
      (encode signature = key.descriptor ↔ '.' ∉ key.descriptor.toList) ∧
      (∀ other, tracked.Tracks name other → other.name = key.name →
        decodeOpen other.descriptor = .ok signature → Canonical key.descriptor →
        Canonical other.descriptor → other = key) ∧
      ∀ ref : MemberRef, ref.owner = name → ref.name = key.name →
        decodeOpen ref.descriptor = .ok signature → '.' ∉ ref.descriptor.toList →
        (tracked.targetOf? ref = some ⟨name, key⟩ ↔ '.' ∉ key.descriptor.toList) := by
  rcases exists_decodeOpen_of_tracks chosen tracks with ⟨signature, read⟩
  refine ⟨signature, read, Descriptor.encode_eq_self_iff read, ?_, ?_⟩
  · intro other _ named otherRead canonical otherCanonical
    have equal := otherCanonical.eq_of_decodeOpen canonical otherRead read
    cases other
    cases key
    cases named
    cases equal
    rfl
  · rintro ⟨owner, method, descriptor⟩ rfl rfl refRead undotted
    rw [targetOf?_eq_some_iff]
    constructor
    · rintro ⟨_, _, same⟩
      have equal : descriptor = key.descriptor := congrArg (fun target => target.key.descriptor) same
      rwa [← equal]
    · intro plain
      have written := (Descriptor.encode_eq_self_iff refRead).2 undotted
      have equal : descriptor = key.descriptor :=
        written.symm.trans ((Descriptor.encode_eq_self_iff read).2 plain)
      subst equal
      exact ⟨owner, declarer?_eq_self tracks, rfl⟩

/-- A method that takes an item, whose descriptor may be spelled in either way. -/
def takingMethod (descriptor : String) : MethodDecl :=
  { name := "take", descriptor, access := .ofPublic }

theorem decodeOpen_item : decodeOpen "(La/b/Item;)V" = .ok ⟨.void, [.object "a.b.Item"]⟩ := by
  decide +kernel

theorem decodeOpen_dottedItem :
    decodeOpen "(La.b.Item;)V" = .ok ⟨.void, [.object "a.b.Item"]⟩ := by
  decide +kernel

/-- A method with a readable descriptor is tracked as it is spelled. -/
theorem tracks_takingMethod {descriptor : String} {signature : Signature}
    (read : decodeOpen descriptor = .ok signature) :
    let methods := [takingMethod descriptor]
    let tracked := empty.insert "a.Shop" (shopSurface methods)
    (shopTrack methods).outcome = .ok tracked ∧ tracked.Tracks "a.Shop" ⟨"take", descriptor⟩ := by
  intro methods tracked
  have readable : TrackedSurface.Readable methods := by
    intro method member
    cases List.mem_singleton.1 member
    exact ⟨signature, read⟩
  have kept : baseExclusion false "a.Shop" (takingMethod descriptor) = none := by
    have isPublic : ClassFile.Access.ofPublic.isPublic = true := by decide
    simp [baseExclusion, takingMethod, isPublic]
  refine ⟨outcome_shopTrack readable, shopSurface methods, OrderedMap.get?_insert_self, ?_⟩
  exact TrackedSurface.mem_methods_narrow_iff.2
    (.inl ⟨takingMethod descriptor, List.mem_singleton_self _, kept, rfl⟩)

theorem canonical_iff_of_track_sample :
    let methods := [takingMethod "(La/b/Item;)V"]
    let tracked := empty.insert "a.Shop" (shopSurface methods)
    let key : MethodKey := ⟨"take", "(La/b/Item;)V"⟩
    (shopTrack methods).outcome = .ok tracked ∧ tracked.Tracks "a.Shop" key ∧
      ∃ signature, decodeOpen key.descriptor = .ok signature ∧
        (encode signature = key.descriptor ↔ '.' ∉ key.descriptor.toList) ∧
        (∀ other, tracked.Tracks "a.Shop" other → other.name = key.name →
          decodeOpen other.descriptor = .ok signature → Canonical key.descriptor →
          Canonical other.descriptor → other = key) ∧
        ∀ ref : MemberRef, ref.owner = "a.Shop" → ref.name = key.name →
          decodeOpen ref.descriptor = .ok signature → '.' ∉ ref.descriptor.toList →
          (tracked.targetOf? ref = some ⟨"a.Shop", key⟩ ↔ '.' ∉ key.descriptor.toList) := by
  intro methods tracked key
  rcases tracks_takingMethod decodeOpen_item with ⟨chosen, tracks⟩
  exact ⟨chosen, tracks, canonical_iff_of_track chosen tracks⟩

/-- A descriptor with dots is tracked as it is spelled, and the reference of compiled code to the
same method leads nowhere. -/
theorem not_canonical_of_track :
    let methods := [takingMethod "(La.b.Item;)V"]
    let tracked := empty.insert "a.Shop" (shopSurface methods)
    (shopTrack methods).outcome = .ok tracked ∧
      tracked.Tracks "a.Shop" ⟨"take", "(La.b.Item;)V"⟩ ∧ ¬ Canonical "(La.b.Item;)V" ∧
      tracked.targetOf? ⟨"a.Shop", "take", "(La/b/Item;)V"⟩ = none := by
  intro methods tracked
  rcases tracks_takingMethod decodeOpen_dottedItem with ⟨chosen, tracks⟩
  refine ⟨chosen, tracks, ?_, ?_⟩
  · rw [Descriptor.canonical_iff_of_decodeOpen decodeOpen_dottedItem]
    decide
  · have absent : ∀ entry ∈ tracked.surfaces.entries,
        ⟨"take", "(La/b/Item;)V"⟩ ∉ entry.2.methods.elements := by
      decide +kernel
    cases leads : tracked.targetOf? ⟨"a.Shop", "take", "(La/b/Item;)V"⟩ with
    | none => rfl
    | some target =>
        rcases targetOf?_eq_some_iff.1 leads with ⟨top, found, _⟩
        rcases tracks_of_declarer? found with ⟨surface, known, member⟩
        exact absurd member (absent _ (get?_eq_some_iff.1 known))

end TrackedSurfaces

end ApiCoverage
