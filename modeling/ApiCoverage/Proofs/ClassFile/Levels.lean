import ApiCoverage.Proofs.ClassFile.AttributeList

/-!
# The attributes of code, methods and classes

The three levels at which attributes are recognised, each as the handlers of its names. Line tables
add up, whereas a later attribute of any other name replaces what an earlier one gave; only the mark
of deprecation stays, wherever it comes from.
-/

namespace ApiCoverage.ClassFile

open Reader

namespace CodeBody

/-- The attributes of code: line tables, whose rows are collected in reverse. -/
def level : Attribute.Level (Option (List LineEntry)) where
  handlers := [
    ⟨"LineNumberTable", _, LineEntry.readTable, LineEntry.relocatable_readTable,
      fun rows table => some (rows.reverse ++ table.getD [])⟩]
  independent := List.pairwise_singleton _ _

theorem withAttribute_eq_act : withAttribute = level.act := by
  funext table entry
  by_cases named : entry.name = "LineNumberTable"
  · simp [withAttribute, Attribute.Level.act, Attribute.Level.handler?, level, named]
  · simp [withAttribute, Attribute.Level.act, Attribute.Level.handler?, level, named, Ne.symm named]

/-- Line tables act as their rows in file order, and nothing else acts. -/
theorem exists_tables_of_run {pool : Pool} {entries : List RawAttribute}
    {table result : Option (List LineEntry)}
    (given : level.run pool entries table = some result) :
    ∃ tables,
      List.Forall₂ (fun (entry : RawAttribute) rows => entry.read? LineEntry.readTable = some rows)
        (RawAttribute.called pool "LineNumberTable" entries) tables ∧
      result = if tables = [] then table else some (tables.flatten.reverse ++ table.getD []) := by
  induction entries generalizing table with
  | nil =>
      cases given
      exact ⟨[], .nil, rfl⟩
  | cons entry rest ih =>
      rcases Attribute.Level.run_cons_eq_some_iff.1 given with ⟨change, effect, tail⟩
      rcases ih tail with ⟨tables, shapes, rfl⟩
      rcases Attribute.Level.effectOf_cases effect with
        ⟨handler, member, named, rows, read, rfl⟩ | ⟨⟨name, named, unknown⟩, rfl⟩
      · obtain rfl := List.mem_singleton.1 member
        refine ⟨rows :: tables, ?_, ?_⟩
        · rw [RawAttribute.called, List.filter_cons_of_pos (by simp [named])]
          exact .cons read shapes
        · cases tables <;> simp
      · have other : name ≠ "LineNumberTable" := fun same => unknown (List.mem_singleton.2 same)
        refine ⟨tables, ?_, rfl⟩
        rw [RawAttribute.called, List.filter_cons_of_neg (by simp [named, other])]
        exact shapes

theorem relocatable_read (pool : Pool) : (read pool).Relocatable := by
  refine (relocatable_take _ _).bind fun _ => (relocatable_doubleWord _).bind fun _ =>
    (relocatable_take _ _).bind fun _ => (relocatable_word _).bind fun _ =>
      (relocatable_take _ _).bind fun _ => (relocatable_word _).bind fun count => ?_
  rw [withAttribute_eq_act]
  exact (level.relocatable_fold _ _ _).bind fun _ => relocatable_pure _

end CodeBody

namespace MethodDecl

/-- The attributes of a method. -/
def level (pool : Pool) : Attribute.Level MethodDecl where
  handlers := [
    ⟨"Code", _, CodeBody.read pool, CodeBody.relocatable_read pool,
      fun body method => { method with body := some body }⟩,
    ⟨"Deprecated", _, pure (), relocatable_pure (),
      fun _ method => { method with deprecated := true }⟩,
    ⟨"RuntimeVisibleAnnotations", _, AnnotationUse.readList pool,
      AnnotationUse.relocatable_readList pool, fun annotations method =>
        { method with
          annotations
          deprecated := method.deprecated || annotations.any AnnotationUse.isDeprecation }⟩,
    ⟨"RuntimeVisibleParameterAnnotations", _, AnnotationUse.readParameters pool,
      AnnotationUse.relocatable_readParameters pool,
      fun parameterAnnotations method => { method with parameterAnnotations }⟩]
  independent := by
    simp only [List.pairwise_cons, List.forall_mem_cons, List.not_mem_nil, false_imp_iff,
      implies_true, and_true, List.Pairwise.nil]
    refine ⟨⟨?_, ?_, ?_⟩, ⟨?_, ?_⟩, ?_⟩
    case refine_4 => exact fun _ uses method => by simp
    all_goals exact fun _ _ _ => rfl

theorem withAttribute_eq_act (pool : Pool) : withAttribute pool = (level pool).act := by
  funext method ⟨name, body⟩
  unfold withAttribute Attribute.Level.act
  split
  case h_1 same =>
    obtain rfl : name = "Code" := same
    simp only [Attribute.Level.handler?, level, List.find?_cons, BEq.rfl]
    exact bind_pure_comp _ _
  case h_2 same =>
    obtain rfl : name = "Deprecated" := same
    simp only [Attribute.Level.handler?, level, List.find?_cons, String.reduceBEq]
    rfl
  case h_3 same =>
    obtain rfl : name = "RuntimeVisibleAnnotations" := same
    simp only [Attribute.Level.handler?, level, List.find?_cons, String.reduceBEq]
    exact bind_pure_comp _ _
  case h_4 same =>
    obtain rfl : name = "RuntimeVisibleParameterAnnotations" := same
    simp only [Attribute.Level.handler?, level, List.find?_cons, String.reduceBEq]
    exact bind_pure_comp _ _
  case h_5 notCode notDeprecated notAnnotations notParameters =>
    have unknown : name ∉ (level pool).known := by
      simp only [Attribute.Level.known, level, List.map_cons, List.map_nil, List.mem_cons,
        List.not_mem_nil, or_false]
      rintro (same | same | same | same) <;> contradiction
    rw [Attribute.Level.handler?_eq_none_iff.2 unknown]

/-- An attribute marks its method as deprecated, by its name or by an annotation. -/
def MarksDeprecated (pool : Pool) (entry : RawAttribute) : Prop :=
  entry.name? pool = some "Deprecated" ∨
    entry.name? pool = some "RuntimeVisibleAnnotations" ∧
      ∃ uses, entry.read? (AnnotationUse.readList pool) = some uses ∧
        ∃ use ∈ uses, use.typeName = "java.lang.Deprecated"

variable {pool : Pool}

/-- What one attribute does to the mark of deprecation and to the body. -/
theorem effectOf_spec {entry : RawAttribute} {change : MethodDecl → MethodDecl}
    (given : (level pool).effectOf pool entry = some change) (method : MethodDecl) :
    ((change method).deprecated = true ↔
      method.deprecated = true ∨ MarksDeprecated pool entry) ∧
    (change method).body =
      if entry.name? pool = some "Code" then entry.read? (CodeBody.read pool) else method.body := by
  unfold MarksDeprecated
  rcases Attribute.Level.effectOf_cases given with
    ⟨handler, member, named, value, read, rfl⟩ | ⟨⟨name, named, unknown⟩, rfl⟩
  · simp only [level, List.mem_cons, List.not_mem_nil, or_false] at member
    rcases member with rfl | rfl | rfl | rfl
    · simp [named, read]
    · simp [named]
    · simp [named, read, AnnotationUse.isDeprecation]
    · simp [named]
  · simp only [Attribute.Level.known, level, List.map_cons, List.map_nil, List.mem_cons,
      List.not_mem_nil, or_false, not_or] at unknown
    simp [named, unknown]

/-- Code changes a method only through what is read from it. -/
theorem effect_code (body : Bytes) : (level pool).effect "Code" body =
    ((CodeBody.read pool).outcome? body).map fun code method =>
      { method with body := some code } := by
  simp only [Attribute.Level.effect, Attribute.Level.handler?, level, List.find?_cons, BEq.rfl]

/-- A method is deprecated if one of its attributes says so, wherever it stands. -/
theorem deprecated_of_run {entries : List RawAttribute} {method result : MethodDecl}
    (given : (level pool).run pool entries method = some result) :
    result.deprecated = true ↔
      method.deprecated = true ∨ ∃ entry ∈ entries, MarksDeprecated pool entry := by
  induction entries generalizing method with
  | nil =>
      cases given
      simp
  | cons entry rest ih =>
      rcases Attribute.Level.run_cons_eq_some_iff.1 given with ⟨change, effect, tail⟩
      rw [ih tail, (effectOf_spec effect method).1, List.exists_mem_cons_iff, or_assoc]

/-- The body of a method is that of its last code. -/
theorem body_of_run {entries : List RawAttribute} {method result : MethodDecl}
    (given : (level pool).run pool entries method = some result) :
    result.body = ((RawAttribute.called pool "Code" entries).getLast?.map
      (RawAttribute.read? (CodeBody.read pool))).getD method.body := by
  induction entries generalizing method with
  | nil =>
      cases given
      rfl
  | cons entry rest ih =>
      rcases Attribute.Level.run_cons_eq_some_iff.1 given with ⟨change, effect, tail⟩
      rw [ih tail, (effectOf_spec effect method).2]
      by_cases named : entry.name? pool = some "Code"
      · have first : RawAttribute.called pool "Code" (entry :: rest) =
            entry :: RawAttribute.called pool "Code" rest :=
          List.filter_cons_of_pos (by simp [named])
        rw [if_pos named, first, List.getLast?_cons]
        cases (RawAttribute.called pool "Code" rest).getLast? <;> rfl
      · have none : RawAttribute.called pool "Code" (entry :: rest) =
            RawAttribute.called pool "Code" rest :=
          List.filter_cons_of_neg (by simp [named])
        rw [if_neg named, none]

end MethodDecl

namespace ClassUnit

/-- Reads the name of a source file. -/
def readSourceFile (pool : Pool) : Reader String := do
  Reader.ofExcept (pool.utf8 (← Reader.word .sourceFile))

theorem relocatable_readSourceFile (pool : Pool) : (readSourceFile pool).Relocatable :=
  (relocatable_word _).bind fun _ => relocatable_ofExcept _

/-- The index of the name is read from the body, and then it is looked up. -/
theorem parse_readSourceFile (pool : Pool) (entry : Attribute) :
    entry.parse (readSourceFile pool) =
      entry.parse (Reader.word .sourceFile) >>= fun index => pool.utf8 index := by
  simp only [Attribute.parse, readSourceFile, bind_apply]
  cases Reader.word .sourceFile entry.body with
  | error fault => rfl
  | ok step =>
      rcases step with ⟨index, later⟩
      cases named : pool.utf8 index <;> simp [Reader.ofExcept, named, Except.map, bind, Except.bind]

/-- The attributes of a class. -/
def level (pool : Pool) : Attribute.Level Attributes where
  handlers := [
    ⟨"SourceFile", _, readSourceFile pool, relocatable_readSourceFile pool,
      fun file attributes => { attributes with sourceFile := some file }⟩,
    ⟨"RuntimeVisibleAnnotations", _, AnnotationUse.readList pool,
      AnnotationUse.relocatable_readList pool,
      fun annotations attributes => { attributes with annotations }⟩]
  independent := by
    simp only [List.pairwise_cons, List.forall_mem_cons, List.not_mem_nil, false_imp_iff,
      implies_true, and_true, List.Pairwise.nil]
    exact fun _ _ _ => rfl

theorem extend_eq_act (pool : Pool) : Attributes.extend pool = (level pool).act := by
  funext attributes ⟨name, body⟩
  unfold Attributes.extend Attribute.Level.act
  split
  case h_1 same =>
    obtain rfl : name = "SourceFile" := same
    simp only [Attribute.Level.handler?, level, List.find?_cons, BEq.rfl, parse_readSourceFile]
    rw [← bind_assoc]
    exact bind_pure_comp _ _
  case h_2 same =>
    obtain rfl : name = "RuntimeVisibleAnnotations" := same
    simp only [Attribute.Level.handler?, level, List.find?_cons, String.reduceBEq]
    exact bind_pure_comp _ _
  case h_3 notSourceFile notAnnotations =>
    have unknown : name ∉ (level pool).known := by
      simp only [Attribute.Level.known, level, List.map_cons, List.map_nil, List.mem_cons,
        List.not_mem_nil, or_false]
      rintro (same | same) <;> contradiction
    rw [Attribute.Level.handler?_eq_none_iff.2 unknown]

end ClassUnit

end ApiCoverage.ClassFile
