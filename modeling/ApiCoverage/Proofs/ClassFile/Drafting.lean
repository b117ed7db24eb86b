import ApiCoverage.Proofs.ClassFile.Draft
import ApiCoverage.Proofs.Descriptor.Slashes

/-!
# What drafting steps leave in the final pool

The slots that a drafting step hands out are looked up when the file is read, in the pool that all
steps together have built. A step is therefore described by what its result means in that final pool:
every step extends the pool that it is given, and if it stays in front of the final pool, then its
result has there the meaning that its name says, and so has every constant that it added.
-/

namespace ApiCoverage.ClassFile

/-- Every constant of a draft resolves in the final pool, so that method references lead somewhere. -/
def PoolDraft.Linked (pool final : PoolDraft) : Prop :=
  ∀ constant ∈ pool.constants, ∃ symbol, final.toPool.symbol (some constant) = .ok symbol

namespace Drafting

variable {α β : Type} {final : PoolDraft} {given : Prop}

/-- A step that extends its pool and, where it stays in front of the final pool, keeps the pool
linked and has a result as described. -/
def Ensures (final : PoolDraft) (given : Prop) (drafting : Drafting α) (result : α → Prop) : Prop :=
  ∀ pool, pool.Within (drafting pool).2 ∧
    ((drafting pool).2.Within final → given → pool.Linked final →
      (drafting pool).2.Linked final ∧ result (drafting pool).1)

theorem ensures_pure {result : α → Prop} {value : α} (holds : given → result value) :
    Ensures final given (pure value) result :=
  fun pool => ⟨.refl pool, fun _ known linked => ⟨linked, holds known⟩⟩

/-- Consecutive steps: the second may use what the first ensures. -/
theorem Ensures.bind {first : Drafting α} {next : α → Drafting β} {middle : α → Prop}
    {result : β → Prop} (before : Ensures final given first middle)
    (after : ∀ value, Ensures final (given ∧ middle value) (next value) result) :
    Ensures final given (first >>= next) result := by
  intro pool
  rcases before pool with ⟨grown, ensured⟩
  rcases after (first pool).1 (first pool).2 with ⟨later, finished⟩
  refine ⟨grown.trans later, ?_⟩
  intro within known linked
  rcases ensured (later.trans within) known linked with ⟨linked, holds⟩
  exact finished within ⟨known, holds⟩ linked

theorem Ensures.imp {drafting : Drafting α} {weaker : Prop} {result described : α → Prop}
    (ensures : Ensures final weaker drafting result) (enough : given → weaker)
    (implies : ∀ value, given → result value → described value) :
    Ensures final given drafting described := by
  intro pool
  rcases ensures pool with ⟨grown, ensured⟩
  refine ⟨grown, ?_⟩
  intro within known linked
  rcases ensured within (enough known) linked with ⟨linked, holds⟩
  exact ⟨linked, implies _ known holds⟩

/-- A step on every member of a list ensures for each result what it ensures for its member. -/
theorem ensures_mapM (given : Prop) {list : List α} {step : α → Drafting β} {result : α → β → Prop}
    (members : ∀ member ∈ list, Ensures final given (step member) (result member)) :
    Ensures final given (list.mapM step) (List.Forall₂ result list) := by
  induction list with
  | nil => exact ensures_pure fun _ => .nil
  | cons head rest ih =>
      rw [List.mapM_cons]
      have tail := ih fun member inside => members member (List.mem_cons_of_mem _ inside)
      apply (members head List.mem_cons_self).bind
      intro value
      apply (tail.imp And.left fun _ _ holds => holds).bind
      intro values
      exact ensures_pure fun known => .cons known.1.2 known.2

/-! ## Constants -/

/-- An added constant is found in its slot of the final pool. -/
theorem ensures_append (fits : final.Fits) {constant : Constant}
    (resolves : given → ∃ symbol, final.toPool.symbol (some constant) = .ok symbol) :
    Ensures final given (append constant)
      fun slot => final.toPool.get? slot = some constant := by
  intro pool
  refine ⟨pool.within_append [constant], ?_⟩
  intro within known linked
  constructor
  · intro other member
    rcases List.mem_append.1 member with old | new
    · exact linked other old
    · rw [List.mem_singleton.1 new]
      exact resolves known
  · exact ((pool.holds_nextSlot constant).of_within within).get?_ofNat fits

/-- A constant is found in its slot of the final pool, whether it was there or is new. -/
theorem ensures_intern (fits : final.Fits) {constant : Constant}
    (resolves : given → ∃ symbol, final.toPool.symbol (some constant) = .ok symbol) :
    Ensures final given (intern constant)
      fun slot => final.toPool.get? slot = some constant := by
  intro pool
  unfold intern
  cases found : PoolDraft.slotOf? constant 1 pool.constants with
  | none => exact ensures_append fits resolves pool
  | some slot =>
      refine ⟨.refl pool, ?_⟩
      intro within _ linked
      exact ⟨linked, ((PoolDraft.holds_of_slotOf? found).of_within within).get?_ofNat fits⟩

theorem ensures_utf8 (fits : final.Fits) (text : String) :
    Ensures final given (utf8 text) fun slot => final.toPool.utf8 slot = .ok text := by
  apply (ensures_intern fits fun _ => ⟨.other, rfl⟩).imp id
  intro slot _ stands
  exact Pool.utf8_eq_ok_iff.2 stands

theorem ensures_classReference (fits : final.Fits) (name : String) :
    Ensures final given (classReference name)
      fun slot => final.toPool.className slot = .ok (Pool.dottedName name) := by
  apply (ensures_utf8 fits _).bind
  intro text
  apply (ensures_intern fits fun _ => ⟨.other, rfl⟩).imp id
  intro slot known stands
  have named := Pool.utf8_eq_ok_iff.1 known.2
  exact Pool.className_eq_ok_iff.2
    ⟨text, _, stands, named, (Pool.dottedName_ofList_slashed name).symm⟩

theorem ensures_nameAndType (fits : final.Fits) (name descriptor : String) :
    Ensures final given (nameAndType name descriptor)
      fun slot => final.toPool.nameAndType slot = .ok (name, descriptor) := by
  apply (ensures_utf8 fits name).bind
  intro nameSlot
  apply (ensures_utf8 fits descriptor).bind
  intro descriptorSlot
  apply (ensures_intern fits fun _ => ⟨.other, rfl⟩).imp id
  intro slot known stands
  rcases known with ⟨⟨_, named⟩, described⟩
  rw [Pool.utf8_eq_ok_iff] at named described
  exact Pool.nameAndType_eq_ok_iff.2 ⟨nameSlot, descriptorSlot, stands, named, described⟩

end Drafting

namespace Pool

/-- What the constant in a slot means to the reader of method calls. -/
def symbolAt (pool : Pool) (slot : UInt16) : Option Symbol :=
  (pool.slots[slot.toNat]?).bind fun entry => (pool.symbol entry).toOption

theorem symbolAt_eq_some {pool : Pool} {slot : UInt16} {constant : Constant} {symbol : Symbol}
    (stands : pool.get? slot = some constant) (resolves : pool.symbol (some constant) = .ok symbol) :
    pool.symbolAt slot = some symbol := by
  have entry : pool.slots[slot.toNat]? = some (some constant) := Option.join_eq_some_iff.1 stands
  rw [symbolAt, entry, Option.bind_some, resolves]
  rfl

end Pool

namespace Drafting

variable {final : PoolDraft} {given : Prop}

/-- A reference of either kind leads to its method, given that its constant is resolved so. -/
theorem ensures_member (fits : final.Fits) {make : UInt16 → UInt16 → Constant}
    {kind : MemberRef → Symbol}
    (resolves : ∀ owner nameAndType, final.toPool.symbol (some (make owner nameAndType)) =
      (final.toPool.member owner nameAndType).map kind) (ref : MemberRef) :
    Ensures final given (member make ref)
      fun slot => final.toPool.symbolAt slot = some (kind ref.dotted) := by
  apply (ensures_classReference fits ref.owner).bind
  intro owner
  apply (ensures_nameAndType fits ref.name ref.descriptor).bind
  intro nameAndType
  have leads : (given ∧ final.toPool.className owner = .ok (Pool.dottedName ref.owner)) ∧
      final.toPool.nameAndType nameAndType = .ok (ref.name, ref.descriptor) →
      final.toPool.symbol (some (make owner nameAndType)) = .ok (kind ref.dotted) := by
    rintro ⟨⟨_, owned⟩, described⟩
    rw [resolves]
    exact Outcome.map_eq_ok_iff.2 ⟨ref.dotted, Pool.member_eq_ok_iff.2 ⟨owned, described⟩, rfl⟩
  apply (ensures_intern fits fun known => ⟨_, leads known⟩).imp id
  intro slot known stands
  exact Pool.symbolAt_eq_some stands (leads known)

theorem ensures_method (fits : final.Fits) (ref : MemberRef) :
    Ensures final given (method ref)
      fun slot => final.toPool.symbolAt slot = some (.method ref.dotted) :=
  ensures_member fits (fun _ _ => rfl) ref

theorem ensures_interfaceMethod (fits : final.Fits) (ref : MemberRef) :
    Ensures final given (interfaceMethod ref)
      fun slot => final.toPool.symbolAt slot = some (.interfaceMethod ref.dotted) :=
  ensures_member fits (fun _ _ => rfl) ref

end Drafting

end ApiCoverage.ClassFile
