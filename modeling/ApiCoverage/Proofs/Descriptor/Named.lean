import ApiCoverage.Proofs.Descriptor.RoundTrip
import ApiCoverage.Proofs.JvmType.SourceName

/-!
# Signatures of types that have names

A type that a name of source text stands for keeps within what descriptors can say: its identifiers hold
none of the characters with a meaning there, and it is no array of `void`. So a signature of such types
is read back from its descriptor. Neither can its identifiers hold what stands between the parameters of
a display form, and the display form of a type is a name of the type again, so the parameters are
recovered from their display form.
-/

namespace ApiCoverage

namespace JvmType

variable {type : JvmType} {base : List Char}

/-! ## Characters that names do not have -/

/-- A qualified name holds no character that is neither a dot nor part of an identifier. -/
theorem IsQualified.not_mem (qualified : IsQualified base) {char : Char} (notDot : char ≠ '.')
    (notPart : isIdentifierPart char = false) : char ∉ base := by
  intro member
  rcases qualified.eq_dot_or_isIdentifierPart char member with dot | part
  · exact notDot dot
  · rw [notPart] at part
    cases part

theorem mem_brackets_replicate {depth : Nat} {char : Char}
    (member : char ∈ brackets (List.replicate depth [])) : char = '[' ∨ char = ']' := by
  obtain ⟨gap, listed, inside⟩ := List.mem_flatMap.1 member
  rw [List.eq_of_mem_replicate listed] at inside
  simpa using inside

theorem IsNameable.comma_not_mem (nameable : type.IsNameable) : ',' ∉ type.display.toList := by
  obtain ⟨name, depth, qualified, _, rfl⟩ := isNameable_iff.1 nameable
  rw [display_arrayOf, display_ofBaseName, List.mem_append, not_or]
  constructor
  · exact qualified.not_mem (by decide) (by decide)
  · intro member
    rcases mem_brackets_replicate member with bracket | bracket <;> cases bracket

theorem IsNameable.display_ne_nil (nameable : type.IsNameable) : type.display.toList ≠ [] := by
  obtain ⟨name, depth, qualified, _, rfl⟩ := isNameable_iff.1 nameable
  rw [display_arrayOf, display_ofBaseName]
  exact List.append_ne_nil_of_left_ne_nil qualified.ne_nil _

/-! ## Descriptors -/

theorem isNameable_void : void.IsNameable :=
  ⟨.inl rfl, nofun⟩

theorem arrayOf_ne_void (present : type ≠ .void) (depth : Nat) : arrayOf depth type ≠ .void := by
  cases depth with
  | zero => exact present
  | succ depth =>
      rw [arrayOf_succ]
      exact nofun

/-- Layers around a describable type other than `void` can be described. -/
theorem describable_arrayOf (present : type ≠ .void) (describable : type.Describable) (depth : Nat) :
    (arrayOf depth type).Describable := by
  induction depth with
  | zero => exact describable
  | succ depth ih =>
      rw [arrayOf_succ]
      exact ⟨arrayOf_ne_void present depth, ih⟩

theorem describable_ofBaseName {name : String} (qualified : IsQualified name.toList) :
    (ofBaseName name).Describable := by
  rcases ofBaseName_cases name with ⟨type, _, known⟩ | ⟨_, known⟩
  · rw [known]
    trivial
  · rw [known]
    refine ⟨?_, qualified.not_mem (by decide) (by decide), qualified.not_mem (by decide) (by decide)⟩
    rintro rfl
    exact qualified.ne_nil rfl

/-- A type that has a name has a descriptor. -/
theorem IsNameable.describable (nameable : type.IsNameable) : type.Describable := by
  obtain ⟨name, depth, qualified, inhabited, rfl⟩ := isNameable_iff.1 nameable
  have written := describable_ofBaseName qualified
  by_cases void : ofBaseName name = .void
  · rw [inhabited void]
    exact written
  · exact describable_arrayOf void written depth

end JvmType

/-- Type names of source text stand for the types of a signature, and no parameter is `void`. -/
structure Signature.Named (signature : Signature) : Prop where
  returns : ∃ text, JvmType.parseSourceName text = .ok signature.returns
  params : ∀ param ∈ signature.params,
    param ≠ .void ∧ ∃ text, JvmType.parseSourceName text = .ok param

namespace Signature.Named

variable {signature : Signature}

theorem isNameable (named : signature.Named) : ∀ param ∈ signature.params, param.IsNameable := by
  intro param member
  obtain ⟨_, text, read⟩ := named.params param member
  exact JvmType.isNameable_of_parseSourceName read

theorem describable (named : signature.Named) : signature.Describable := by
  obtain ⟨text, read⟩ := named.returns
  constructor
  · exact (JvmType.isNameable_of_parseSourceName read).describable
  · intro param member
    exact ⟨(named.params param member).1, (named.isNameable param member).describable⟩

end Signature.Named

namespace Descriptor

/-! ## Display forms -/

/-- Behind each comma stands a blank, which then begins the next text. -/
theorem splitOn_intercalate_comma {text : List Char} {others : List (List Char)}
    (plain : ∀ part ∈ text :: others, ',' ∉ part) :
    ([',', ' '].intercalate (text :: others)).splitOn ',' = text :: others.map (' ' :: ·) := by
  rw [List.forall_mem_cons] at plain
  induction others generalizing text with
  | nil => rw [List.intercalate_singleton, List.splitOn_eq_singleton plain.1, List.map_nil]
  | cons next others ih =>
      have behind : [',', ' '].intercalate (text :: next :: others) =
          text ++ ',' :: [',', ' '].intercalate ((' ' :: next) :: others) := by
        cases others <;> simp
      have blankPlain : ',' ∉ ' ' :: next := by
        rw [List.mem_cons, not_or]
        exact ⟨by decide, (List.forall_mem_cons.1 plain.2).1⟩
      rw [behind, List.splitOn_append_cons_self_of_not_mem plain.1,
        ih ⟨blankPlain, (List.forall_mem_cons.1 plain.2).2⟩, List.map_cons]

/-- Texts that hold something but no comma are told apart by what they are with commas between them. -/
theorem intercalate_comma_inj {first second : List (List Char)}
    (plain : ∀ part ∈ first, ',' ∉ part) (filled : ∀ part ∈ first, part ≠ [])
    (otherPlain : ∀ part ∈ second, ',' ∉ part) (otherFilled : ∀ part ∈ second, part ≠ [])
    (same : [',', ' '].intercalate first = [',', ' '].intercalate second) : first = second := by
  have empty_of_nil {parts : List (List Char)} (filled : ∀ part ∈ parts, part ≠ [])
      (nothing : [',', ' '].intercalate parts = []) : parts = [] := by
    cases parts with
    | nil => rfl
    | cons part rest =>
        cases rest <;> simp_all
  cases first with
  | nil => exact (empty_of_nil otherFilled same.symm).symm
  | cons text others =>
      cases second with
      | nil => exact empty_of_nil filled same
      | cons otherText rest =>
          have split := congrArg (List.splitOn ',') same
          rw [splitOn_intercalate_comma plain, splitOn_intercalate_comma otherPlain,
            List.cons.injEq, List.map_inj_right fun _ _ => List.tail_eq_of_cons_eq] at split
          rw [split.1, split.2]

/-- Types that have names are recovered from their display forms, because these are names of them. -/
theorem map_display_inj {first second : List JvmType}
    (nameable : ∀ type ∈ first, type.IsNameable) (otherNameable : ∀ type ∈ second, type.IsNameable)
    (same : first.map JvmType.display = second.map JvmType.display) : first = second := by
  have read {types : List JvmType} (nameable : ∀ type ∈ types, type.IsNameable) :
      (types.map JvmType.display).map JvmType.parseSourceName = types.map .ok := by
    rw [List.map_map]
    exact List.map_congr_left fun type member => (nameable type member).parseSourceName_eq
  have again := congrArg (List.map JvmType.parseSourceName) same
  rw [read nameable, read otherNameable] at again
  exact (List.map_inj_right fun _ _ => Except.ok.inj).1 again

/-- Parameters that have names are recovered from the form in which they are shown together. -/
theorem displayParams_inj {first second : List JvmType}
    (nameable : ∀ type ∈ first, type.IsNameable) (otherNameable : ∀ type ∈ second, type.IsNameable) :
    displayParams first = displayParams second ↔ first = second := by
  constructor
  · intro same
    have shown {types : List JvmType} {holds : List Char → Prop}
        (each : ∀ type ∈ types, holds type.display.toList) :
        ∀ text ∈ (types.map JvmType.display).map String.toList, holds text := by
      simpa using each
    rw [displayParams, displayParams, ← String.toList_inj, String.toList_intercalate,
      String.toList_intercalate] at same
    have texts := intercalate_comma_inj
      (shown fun type member => (nameable type member).comma_not_mem)
      (shown fun type member => (nameable type member).display_ne_nil)
      (shown fun type member => (otherNameable type member).comma_not_mem)
      (shown fun type member => (otherNameable type member).display_ne_nil) same
    exact map_display_inj nameable otherNameable
      ((List.map_inj_right fun _ _ => String.toList_inj.1).1 texts)
  · rintro rfl
    rfl

/-- A method is shown with the parameters that its descriptor was written for. -/
theorem display_encode {signature : Signature} (describable : signature.Describable) (name : String) :
    display name (encode signature) = .ok s!"{name}({displayParams signature.params})" := by
  rw [display, decodeOpen, decode_openContext_encode describable]
  rfl

/-- Display forms of a name are the same when their parameters are shown in the same way. -/
theorem shown_inj {name params others : String} :
    s!"{name}({params})" = s!"{name}({others})" ↔ params = others := by
  constructor
  · intro same
    have texts := congrArg String.toList same
    simpa [toString, String.toList_inj] using texts
  · rintro rfl
    rfl

/-- Two methods of one name are shown in the same way exactly when they have the same parameters. -/
theorem display_encode_inj {first second : Signature} (named : first.Named)
    (otherNamed : second.Named) (name : String) :
    display name (encode first) = display name (encode second) ↔ first.params = second.params := by
  rw [display_encode named.describable, display_encode otherNamed.describable, Except.ok.injEq,
    shown_inj, displayParams_inj named.isNameable otherNamed.isNameable]

end Descriptor

end ApiCoverage
