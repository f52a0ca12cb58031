import Lexicon.Proofs.Catalog.Tracking
import Lexicon.Proofs.Registry.Calls

/-! A definition is refused with the error of the first rule that it breaks. -/

namespace Lexicon

variable {Hook : Type}

/-- Breaking the rule is the error. -/
structure Rule where
  kept : Prop
  error : TableError

/-- The error is that of a broken rule behind rules that are all kept. -/
def FirstBroken (error : TableError) : List Rule → Prop
  | [] => False
  | rule :: rules => ¬rule.kept ∧ rule.error = error ∨ rule.kept ∧ FirstBroken error rules

/-- What was found is nothing when all rules are kept, and else the error of the first broken one. -/
structure Judged (rules : List Rule) (found : Option TableError) : Prop where
  accepts : found = none ↔ ∀ rule ∈ rules, rule.kept
  refuses : ∀ error, found = some error ↔ FirstBroken error rules

/-- The first broken rule of two lists is in the second when the first list is kept. -/
theorem firstBroken_append (error : TableError) (rules more : List Rule) :
    FirstBroken error (rules ++ more) ↔
      FirstBroken error rules ∨ (∀ rule ∈ rules, rule.kept) ∧ FirstBroken error more := by
  induction rules with
  | nil => simp [FirstBroken]
  | cons rule rules ih =>
      rw [List.cons_append, FirstBroken, FirstBroken, ih, List.forall_mem_cons]
      tauto

/-- Rules that are all kept break nowhere. -/
theorem not_firstBroken_of_kept {rules : List Rule} (kept : ∀ rule ∈ rules, rule.kept)
    (error : TableError) : ¬FirstBroken error rules := by
  induction rules with
  | nil => exact id
  | cons rule rules ih =>
      obtain ⟨first, rest⟩ := List.forall_mem_cons.mp kept
      rw [FirstBroken]
      simp [first, ih rest]

namespace Judged

variable {kept broken : Prop} {error : TableError} {rules more : List Rule}
  {found later : Option TableError}

/-- Without rules there is no error. -/
theorem nil : Judged [] none := ⟨by simp, by simp [FirstBroken]⟩

/-- A check that fails exactly when its rule is broken comes before the others. -/
theorem cons [Decidable broken] (opposite : broken ↔ ¬kept) (judged : Judged rules found) :
    Judged (⟨kept, error⟩ :: rules) (if broken then some error else found) := by
  by_cases fails : broken
  · have unkept := opposite.mp fails
    constructor
    · simp [fails, unkept]
    · intro other
      simp [fails, unkept, FirstBroken]
  · have holds : kept := not_not.mp (mt opposite.mpr fails)
    constructor
    · simp [fails, holds, judged.accepts]
    · intro other
      simp [fails, holds, FirstBroken, judged.refuses]

/-- More rules are judged only when the first ones are kept. -/
theorem append (judged : Judged rules found) (after : Judged more later) :
    Judged (rules ++ more) (found.or later) := by
  cases found with
  | none =>
      have kept := judged.accepts.mp rfl
      constructor
      · rw [Option.none_or, after.accepts, List.forall_mem_append]
        exact (and_iff_right kept).symm
      · intro error
        rw [Option.none_or, after.refuses, firstBroken_append,
          or_iff_right (not_firstBroken_of_kept kept error), and_iff_right kept]
  | some first =>
      have unkept : ¬∀ rule ∈ rules, rule.kept := mt judged.accepts.mpr nofun
      constructor
      · rw [Option.some_or, List.forall_mem_append]
        simp only [unkept, false_and, reduceCtorEq]
      · intro error
        rw [Option.some_or, judged.refuses, firstBroken_append]
        simp only [unkept, false_and, or_false]

end Judged

namespace Attributes

/-- The rules that attributes keep among themselves. Exponentiation stays the only right-associative
operator. -/
def rules (attributes : Attributes) (name : String) (isKeyword : Bool) : List Rule :=
  [⟨attributes.level ≠ some 0, .invalidLevel name 0⟩,
    ⟨attributes.level.isSome = true → attributes.has .beforeExpr = true,
      .inconsistentFlags name .closedBinary⟩,
    ⟨attributes.level.isSome = true → attributes.has .isAssign = false,
      .inconsistentFlags name .leveledAssignment⟩,
    ⟨attributes.has .rightAssociative = true → attributes.level.isSome = true,
      .inconsistentFlags name .unleveledRight⟩,
    ⟨attributes.has .rightAssociative = false, .inconsistentFlags name .secondRight⟩,
    ⟨attributes.has .unaryPrefix = true ∨ attributes.has .unaryPostfix = true →
      attributes.has .startsExpr = true, .inconsistentFlags name .closedUnary⟩,
    ⟨attributes.has .isLoop = true → isKeyword = true,
      .inconsistentFlags name .loopWithoutKeyword⟩]

theorem and_not_iff (first second : Bool) :
    (first && !second) = true ↔ ¬(first = true → second = true) := by
  revert first second
  decide

/-- Beside a right-associative operator the check finds the first rule that is broken. -/
theorem fault?_judged (attributes : Attributes) (name : String) (isKeyword : Bool) :
    Judged (attributes.rules name isKeyword)
      ((attributes.fault? isKeyword true).map (TableError.ofFault name)) := by
  simp only [fault?, apply_ite (Option.map _), Option.map_some, Option.map_none,
    TableError.ofFault]
  refine .cons (by simp) (.cons ?_ (.cons ?_ (.cons ?_ (.cons ?_ (.cons ?_ (.cons ?_ .nil))))))
  · exact and_not_iff _ _
  · rw [← not_and_iff, not_not]
  · rw [← Option.not_isSome]
    exact and_not_iff _ _
  · rw [Bool.and_true, Bool.not_eq_false]
  · rw [← Bool.or_eq_true_iff]
    exact and_not_iff _ _
  · exact and_not_iff _ _

end Attributes

namespace Report

variable {Result : Type}

/-- A change that failed has an error. -/
def error? (report : Report Result) : Option TableError :=
  match report.result with
  | .ok _ => none
  | .error error => some error

/-- A report without an error has a result. -/
theorem error?_eq_none_iff (report : Report Result) :
    report.error? = none ↔ ∃ value, report.result = .ok value := by
  rw [error?]
  cases report.result <;> simp

/-- The error of a report is its failed result. -/
theorem error?_eq_some_iff (report : Report Result) (error : TableError) :
    report.error? = some error ↔ report.result = .error error := by
  rw [error?]
  cases report.result <;> simp

end Report

namespace Catalog

/-- A definition needs a fresh name, then attributes that keep their rules, and then room. -/
def rules (catalog : Catalog Hook) (name : String) (isKeyword : Bool) (attributes : Attributes) :
    List Rule :=
  ⟨catalog.handle? name = none, .duplicateName name⟩ :: attributes.rules name isKeyword ++
    [⟨catalog.size < 65536, .tooManyTokens name⟩]

/-- A definition fails by an objection or, without one, by a full catalog. -/
theorem error?_define (catalog : Catalog Hook) (name label : String) (keyword : Option String)
    (attributes : Attributes) :
    (catalog.define name label keyword attributes).2.error? =
      (catalog.objection? name keyword attributes).or
        (if capacity ≤ catalog.size then some (.tooManyTokens name) else none) := by
  cases objection : catalog.objection? name keyword attributes with
  | some error =>
      rw [define_of_objection objection]
      rfl
  | none =>
      rcases Nat.lt_or_ge catalog.size capacity with room | full
      · rw [define_of_room objection room, if_neg (Nat.not_le.mpr room)]
        rfl
      · rw [define_of_full objection full, if_pos full]
        rfl

/-- A definition fails with the error of the first rule that it breaks. -/
theorem Numbered.define_judged {catalog : Catalog Hook} (numbered : catalog.Numbered)
    (name label : String) (keyword : Option String) (attributes : Attributes) :
    Judged (catalog.rules name keyword.isSome attributes)
      (catalog.define name label keyword attributes).2.error? := by
  have named : catalog.names.contains name = true ↔ ¬catalog.handle? name = none := by
    rw [handle?, OrderedMap.get?_eq_none_iff, Bool.not_eq_false]
  have full : capacity ≤ catalog.size ↔ ¬catalog.size < 65536 := Nat.not_lt.symm
  rw [error?_define, objection?, numbered.isSome_rightAssociative]
  exact (Judged.cons named (attributes.fault?_judged name keyword.isSome)).append
    (Judged.cons full .nil)

end Catalog

namespace Registry

/-- A registration needs a spelling that is new to the index, and then its definition is judged. -/
def rules (registry : Registry Hook) (spelling : String) (attributes : Attributes) : List Rule :=
  ⟨spelling ≠ "" ∧ ∀ c ∈ spelling.toList, Text.isWhiteSpace c = false,
      .invalidKeyword spelling⟩ ::
    ⟨registry.keywords.get? spelling = none, .duplicateKeyword spelling⟩ ::
      registry.catalog.rules (Keyword.name spelling) true attributes

/-- A registration fails by the refusal of its call. -/
theorem error?_register (registry : Registry Hook) (spelling : String) (attributes : Attributes) :
    (registry.register spelling attributes).2.error? =
      registry.refusal? (.keyword spelling attributes) := by
  rw [register_eq_outcome, outcome]
  cases registry.refusal? (.keyword spelling attributes) <;> rfl

/-- A registration fails with the error of the first rule that it breaks. -/
theorem register_judged {registry : Registry Hook} (numbered : registry.catalog.Numbered)
    (spelling : String) (attributes : Attributes) :
    Judged (registry.rules spelling attributes)
      (registry.register spelling attributes).2.error? := by
  have spelled : Keyword.isSpelling spelling = false ↔
      ¬(spelling ≠ "" ∧ ∀ c ∈ spelling.toList, Text.isWhiteSpace c = false) := by
    rw [← Keyword.isSpelling_eq_true_iff, Bool.not_eq_true]
  have indexed : registry.keywords.contains spelling = true ↔
      ¬registry.keywords.get? spelling = none := by
    rw [KeywordIndex.get?, OrderedMap.get?_eq_none_iff, Bool.not_eq_false]
    rfl
  have defined := numbered.define_judged (Keyword.name spelling) spelling (some spelling) attributes
  rw [Catalog.error?_define] at defined
  rw [error?_register, refusal?_keyword]
  exact (Judged.cons spelled (.cons indexed .nil)).append defined

end Registry

end Lexicon
