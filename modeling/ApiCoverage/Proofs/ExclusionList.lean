import ApiCoverage.Exclusion
import ApiCoverage.Proofs.Ordered.Set
import ApiCoverage.Proofs.Text.Listing

/-!
# What an exclusion list leaves out

A line of an exclusion list names a method by its type, its name and its descriptor with an at sign
between them. The format has no way to write an at sign that stands inside a part, so a line with more
than two of them is the spelling of several triples, and the list leaves out the methods of all of them.
A triple without at signs in its parts shares its spelling with no other.
-/

namespace ApiCoverage

open ClassFile (MethodDecl)
open Text (LineOf trimChars)

/-- A method of a type, as a line of an exclusion list names it. -/
structure MethodTriple where
  type : String
  name : String
  descriptor : String
  deriving DecidableEq, Repr

namespace MethodTriple

/-- The triple of a method. -/
def ofMethod (type : String) (method : MethodDecl) : MethodTriple :=
  ⟨type, method.name, method.descriptor⟩

/-- The parts of a triple with an at sign between them. -/
def spelling (triple : MethodTriple) : List Char :=
  triple.type.toList ++ '@' :: (triple.name.toList ++ '@' :: triple.descriptor.toList)

/-- No part of a triple holds an at sign. -/
def Plain (triple : MethodTriple) : Prop :=
  '@' ∉ triple.type.toList ∧ '@' ∉ triple.name.toList ∧ '@' ∉ triple.descriptor.toList

variable {first second : MethodTriple}

/-! ## Triples with one spelling -/

/-- Texts are cut at the same separator when as many separators stand in front of it. -/
theorem cut_unique {front back otherFront otherBack : List Char}
    (same : front ++ '@' :: back = otherFront ++ '@' :: otherBack)
    (counts : front.count '@' = otherFront.count '@') : front = otherFront ∧ back = otherBack := by
  induction front generalizing otherFront with
  | nil =>
      cases otherFront with
      | nil => simpa using same
      | cons char others =>
          cases (List.cons.inj same).1
          simp at counts
  | cons char front ih =>
      cases otherFront with
      | nil =>
          cases (List.cons.inj same).1
          simp at counts
      | cons otherChar others =>
          obtain ⟨rfl, tails⟩ := List.cons.inj same
          rw [List.count_cons, List.count_cons, Nat.add_right_cancel_iff] at counts
          obtain ⟨rfl, rfl⟩ := ih tails counts
          exact ⟨rfl, rfl⟩

/-- A spelling tells its triple apart from those with as many at signs in the type and in the name. -/
theorem eq_of_spelling_eq (same : first.spelling = second.spelling)
    (types : first.type.toList.count '@' = second.type.toList.count '@')
    (names : first.name.toList.count '@' = second.name.toList.count '@') : first = second := by
  obtain ⟨type, others⟩ := cut_unique same types
  obtain ⟨name, descriptor⟩ := cut_unique others names
  cases first
  cases second
  simp_all [String.toList_inj]

theorem count_spelling (triple : MethodTriple) :
    triple.spelling.count '@' = triple.type.toList.count '@' + triple.name.toList.count '@' +
      triple.descriptor.toList.count '@' + 2 := by
  simp only [spelling, List.count_append, List.count_cons_self]
  omega

theorem plain_iff_count {triple : MethodTriple} : triple.Plain ↔ triple.spelling.count '@' = 2 := by
  simp only [Plain, ← List.count_eq_zero, count_spelling]
  omega

/-- A plain triple has its spelling for itself. -/
theorem Plain.eq_of_spelling_eq (plain : first.Plain) (same : first.spelling = second.spelling) :
    first = second := by
  have otherPlain : second.Plain := plain_iff_count.2 (same ▸ plain_iff_count.1 plain)
  apply MethodTriple.eq_of_spelling_eq same
  · rw [List.count_eq_zero.2 plain.1, List.count_eq_zero.2 otherPlain.1]
  · rw [List.count_eq_zero.2 plain.2.1, List.count_eq_zero.2 otherPlain.2.1]

theorem exists_toList_eq_append {text : String} (present : '@' ∈ text.toList) :
    ∃ front back : String, text.toList = front.toList ++ '@' :: back.toList := by
  obtain ⟨front, back, split⟩ := List.append_of_mem present
  exact ⟨.ofList front, .ofList back, by simpa using split⟩

/-- An at sign inside a part can be taken for one between parts: another triple has the same
spelling, with an at sign in its name or its descriptor. -/
theorem exists_spelling_eq_of_not_plain (signs : ¬ first.Plain) :
    ∃ second : MethodTriple, second ≠ first ∧ second.spelling = first.spelling ∧
      ('@' ∈ second.name.toList ∨ '@' ∈ second.descriptor.toList) := by
  rcases first with ⟨type, name, descriptor⟩
  by_cases inType : '@' ∈ type.toList
  · obtain ⟨front, back, split⟩ := exists_toList_eq_append inType
    refine ⟨⟨front, back ++ "@" ++ name, descriptor⟩, ?_, ?_, .inl (by simp)⟩
    · rintro same
      cases congrArg MethodTriple.type same
      simp at split
    · simp [spelling, split]
  · by_cases inName : '@' ∈ name.toList
    · obtain ⟨front, back, split⟩ := exists_toList_eq_append inName
      refine ⟨⟨type, front, back ++ "@" ++ descriptor⟩, ?_, ?_, .inr (by simp)⟩
      · rintro same
        cases congrArg MethodTriple.name same
        simp at split
      · simp [spelling, split]
    · have inDescriptor : '@' ∈ descriptor.toList := by
        by_contra absent
        exact signs ⟨inType, inName, absent⟩
      obtain ⟨front, back, split⟩ := exists_toList_eq_append inDescriptor
      refine ⟨⟨type, name ++ "@" ++ front, back⟩, ?_, ?_, .inl (by simp)⟩
      · rintro same
        cases congrArg MethodTriple.descriptor same
        have longer := congrArg List.length split
        rw [List.length_append, List.length_cons] at longer
        omega
      · simp [spelling, split]

end MethodTriple

/-! ## The base policy -/

/-- The base policy knows no lists. -/
theorem baseExclusion_ne_listed (dropObjectMethods : Bool) (type : String) (method : MethodDecl) :
    baseExclusion dropObjectMethods type method ≠ some .listed := by
  unfold baseExclusion
  split_ifs <;> nofun

/-- The base policy tracks every public method with an at sign in its name or its descriptor. -/
theorem baseExclusion_eq_none_of_sign {name descriptor : String}
    (sign : '@' ∈ name.toList ∨ '@' ∈ descriptor.toList) (dropObjectMethods : Bool) (type : String) :
    baseExclusion dropObjectMethods type { name, descriptor, access := .ofPublic } = none := by
  have other : objectMethods.contains (name, descriptor) = false := by
    rw [← Bool.not_eq_true, List.contains_iff_mem]
    intro member
    have signless : ∀ known ∈ objectMethods, '@' ∉ known.1.toList ∧ '@' ∉ known.2.toList := by
      decide
    have ⟨inName, inDescriptor⟩ := signless _ member
    exact sign.elim inName inDescriptor
  unfold baseExclusion
  rw [other]
  simp
  rfl

namespace ExclusionList

/-! ## Listed methods -/

/-- A text lists a triple on a line of its own, which is no comment. -/
def Lists (text : String) (triple : MethodTriple) : Prop :=
  ∃ line, LineOf text.toList line ∧ (trimChars line).head? ≠ some '#' ∧
    trimChars line = triple.spelling

/-- A text lists a triple, and whatever else stands in it is blank or a comment. -/
def ListsOnly (text : String) (triple : MethodTriple) : Prop :=
  Lists text triple ∧ ∀ line, LineOf text.toList line → trimChars line ≠ [] →
    (trimChars line).head? ≠ some '#' → trimChars line = triple.spelling

instance (text : String) (triple : MethodTriple) : Decidable (Lists text triple) :=
  decidable_of_iff (∃ line ∈ Text.lines text,
    (trimChars line).head? ≠ some '#' ∧ trimChars line = triple.spelling) (by
      simp only [Lists, Text.mem_lines_iff])

instance (text : String) (triple : MethodTriple) : Decidable (ListsOnly text triple) :=
  decidable_of_iff (Lists text triple ∧ ∀ line ∈ Text.lines text, trimChars line ≠ [] →
    (trimChars line).head? ≠ some '#' → trimChars line = triple.spelling) (by
      simp only [ListsOnly, Text.mem_lines_iff])

theorem toList_entryFor (type : String) (method : MethodDecl) :
    (entryFor type method).toList = (MethodTriple.ofMethod type method).spelling := by
  change (type ++ "@" ++ method.name ++ "@" ++ method.descriptor).toList = _
  simp [MethodTriple.ofMethod, MethodTriple.spelling]

variable {dropObjectMethods : Bool} {text type : String} {method : MethodDecl}
  {triple listed : MethodTriple} {reason : ExclusionReason}

/-- What is listed are the entries of the text. -/
theorem contains_listed_iff {entry : String} :
    (ofText dropObjectMethods text).listed.contains entry = true ↔ entry ∈ Text.entries text := by
  rw [ofText, OrderedSet.contains_iff_mem, OrderedSet.mem_ofList]

/-- The entries of a list are the spellings of the triples that it lists. -/
theorem contains_entryFor_iff (dropObjectMethods : Bool) :
    (ofText dropObjectMethods text).listed.contains (entryFor type method) = true ↔
      Lists text (.ofMethod type method) := by
  rw [contains_listed_iff, Text.mem_entries_iff, toList_entryFor]
  have filled : entryFor type method ≠ "" := by
    rw [ne_eq, ← String.toList_eq_nil_iff, toList_entryFor]
    simp [MethodTriple.spelling]
  refine exists_congr fun line => and_congr_right fun _ => ?_
  constructor
  · rintro ⟨trimmed, _, comment⟩
    exact ⟨trimmed ▸ comment, trimmed⟩
  · rintro ⟨comment, trimmed⟩
    exact ⟨trimmed, filled, trimmed ▸ comment⟩

/-- A method is left out for the reason of the base policy, or because it is listed. -/
theorem policy_eq_some_iff :
    (ofText dropObjectMethods text).policy type method = some reason ↔
      baseExclusion dropObjectMethods type method = some reason ∨
        baseExclusion dropObjectMethods type method = none ∧ reason = .listed ∧
          Lists text (.ofMethod type method) := by
  have base : (ofText dropObjectMethods text).dropObjectMethods = dropObjectMethods := rfl
  unfold policy
  simp only [base, ← contains_entryFor_iff dropObjectMethods]
  cases baseExclusion dropObjectMethods type method with
  | some given => simp
  | none =>
      cases (ofText dropObjectMethods text).listed.contains (entryFor type method) with
      | false => simp
      | true => simp [eq_comm]

theorem policy_eq_listed_iff :
    (ofText dropObjectMethods text).policy type method = some .listed ↔
      baseExclusion dropObjectMethods type method = none ∧ Lists text (.ofMethod type method) := by
  rw [policy_eq_some_iff, or_iff_right (baseExclusion_ne_listed dropObjectMethods type method)]
  simp

theorem ListsOnly.lists_iff (only : ListsOnly text listed) :
    Lists text triple ↔ triple.spelling = listed.spelling := by
  constructor
  · rintro ⟨line, found, comment, spelled⟩
    rw [← spelled]
    apply only.2 line found _ comment
    rw [spelled]
    simp [MethodTriple.spelling]
  · intro same
    obtain ⟨line, found, comment, spelled⟩ := only.1
    exact ⟨line, found, comment, spelled.trans same.symm⟩

/-- A list leaves out what the base policy leaves out, for its reason, and otherwise exactly the methods
whose triples stand on a line of the text. A text that lists one triple alone leaves out no other with as
many at signs in its type and in its name, and it leaves out no other at all exactly if the triple is
plain. -/
theorem policy_ofText (dropObjectMethods : Bool) (text : String) :
    (∀ type method reason, (ofText dropObjectMethods text).policy type method = some reason ↔
      baseExclusion dropObjectMethods type method = some reason ∨
        baseExclusion dropObjectMethods type method = none ∧ reason = .listed ∧
          Lists text (.ofMethod type method)) ∧
    ∀ listed, ListsOnly text listed →
      (∀ type method, .ofMethod type method ≠ listed →
        type.toList.count '@' = listed.type.toList.count '@' →
        method.name.toList.count '@' = listed.name.toList.count '@' →
        (ofText dropObjectMethods text).policy type method =
          baseExclusion dropObjectMethods type method) ∧
      ((∀ type method, (ofText dropObjectMethods text).policy type method = some .listed →
          .ofMethod type method = listed) ↔ listed.Plain) := by
  refine ⟨fun type method reason => policy_eq_some_iff, fun listed only => ⟨?_, ?_, ?_⟩⟩
  · intro type method differs types names
    have unlisted : ¬ Lists text (.ofMethod type method) := fun lists =>
      differs (MethodTriple.eq_of_spelling_eq (only.lists_iff.1 lists) types names)
    refine Option.ext fun reason => ?_
    rw [policy_eq_some_iff]
    exact or_iff_left fun ⟨_, _, lists⟩ => unlisted lists
  · intro alone
    by_contra signs
    obtain ⟨second, differs, same, sign⟩ := MethodTriple.exists_spelling_eq_of_not_plain signs
    refine differs (alone second.type ⟨second.name, second.descriptor, .ofPublic, false, [], [], none⟩ ?_)
    rw [policy_eq_listed_iff, only.lists_iff]
    exact ⟨baseExclusion_eq_none_of_sign sign dropObjectMethods second.type, same⟩
  · intro plain type method left
    rw [policy_eq_listed_iff, only.lists_iff] at left
    exact (plain.eq_of_spelling_eq left.2.symm).symm

/-- A list with one plain entry between a comment and a blank line. -/
theorem policy_ofText_closing :
    let text := "# generated\r\n  com.acme.Api@close@()V \r\n\r\n"
    let listed : MethodTriple := ⟨"com.acme.Api", "close", "()V"⟩
    let opening : MethodDecl := { name := "open", descriptor := "()V", access := .ofPublic }
    ListsOnly text listed ∧ listed.Plain ∧
      (ofText true text).policy "com.acme.Api" opening = none ∧
      ∀ type method, (ofText true text).policy type method = some .listed →
        .ofMethod type method = listed := by
  intro text listed opening
  have only : ListsOnly text listed := by decide
  have plain : listed.Plain := by
    unfold MethodTriple.Plain
    decide
  obtain ⟨apart, alone⟩ := (policy_ofText true text).2 listed only
  refine ⟨only, plain, ?_, alone.2 plain⟩
  rw [apart "com.acme.Api" opening (by decide) (by decide) (by decide)]
  decide

/-- A list with one entry that two triples have as their spelling: both methods are left out. -/
theorem policy_ofText_two_triples :
    let text := "a@b@c@()V"
    let listed : MethodTriple := ⟨"a", "b@c", "()V"⟩
    let other : MethodDecl := { name := "c", descriptor := "()V", access := .ofPublic }
    ListsOnly text listed ∧ .ofMethod "a@b" other ≠ listed ∧
      (ofText false text).policy "a@b" other = some .listed := by
  intro text listed other
  have only : ListsOnly text listed := by decide
  refine ⟨only, by decide, ?_⟩
  rw [policy_eq_listed_iff, only.lists_iff]
  exact ⟨by decide, by decide⟩

end ExclusionList

end ApiCoverage
