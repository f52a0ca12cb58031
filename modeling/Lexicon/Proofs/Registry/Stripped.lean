import Lexicon.Proofs.Expression.Lexing

/-! A registry that is stripped of labels and of the unnamed flag goes through the same calls. -/

namespace Lexicon

variable {Hook : Type}

namespace Flags

/-- No named flag is cut off. -/
theorem inter_truncate (flags : Flags) (flag : Flag) :
    flags.truncate.inter (only flag) = flags.inter (only flag) := by
  have named : (127 : UInt8) &&& flag.bit = flag.bit := by cases flag <;> rfl
  simp only [truncate, inter, Flags.named, only, UInt8.and_assoc, named]

/-- A truncated set has the same members. -/
theorem has_truncate (flags : Flags) (flag : Flag) : flags.truncate.has flag = flags.has flag := by
  rw [has, includes, inter_truncate]
  rfl

end Flags

namespace Attributes

/-- The unnamed bit is dropped. -/
def stripped (attributes : Attributes) : Attributes :=
  { attributes with flags := attributes.flags.truncate }

/-- Stripping keeps the named flags. -/
theorem has_stripped (attributes : Attributes) (flag : Flag) :
    attributes.stripped.has flag = attributes.has flag :=
  attributes.flags.has_truncate flag

/-- Stripping makes no attributes better or worse. -/
theorem fault?_stripped (attributes : Attributes) (isKeyword rightTaken : Bool) :
    attributes.stripped.fault? isKeyword rightTaken = attributes.fault? isKeyword rightTaken := by
  simp only [fault?, has_stripped]
  rfl

/-- A binary operator is defined without the unnamed bit. -/
theorem stripped_binary (level : UInt8) : (binary level).stripped = binary level := by
  have flags : (Flags.only .beforeExpr).truncate = .only .beforeExpr := by decide
  rw [stripped, binary, flags]

end Attributes

namespace Descriptor

/-- The label of a keyword is its spelling and stays. Any other label is blank. -/
def stripped (descriptor : Descriptor Hook) : Descriptor Hook :=
  { descriptor with
    label := if descriptor.keyword.isSome then descriptor.label else ""
    attributes := descriptor.attributes.stripped }

theorem has_stripped (descriptor : Descriptor Hook) (flag : Flag) :
    descriptor.stripped.has flag = descriptor.has flag :=
  descriptor.attributes.has_stripped flag

/-- Stripping keeps the tier. -/
theorem tier?_stripped (descriptor : Descriptor Hook) :
    descriptor.stripped.tier? = descriptor.tier? := by
  rw [tier?, tier?, has_stripped]
  rfl

/-- Stripping keeps the associativity. -/
theorem associativity?_stripped (descriptor : Descriptor Hook) :
    descriptor.stripped.associativity? = descriptor.associativity? := by
  rw [associativity?, associativity?, tier?_stripped, has_stripped]

end Descriptor

/-- The events of a definition show its label. -/
def Event.stripped : Event → Event
  | .defined name _ handle => .defined name "" handle
  | event => event

def Report.stripped {Result : Type} (report : Report Result) : Report Result :=
  ⟨report.result, report.events.map Event.stripped⟩

namespace Definition

def stripped : Definition → Definition
  | .plain name _ attributes => .plain name "" attributes.stripped
  | .keyword spelling attributes => .keyword spelling attributes.stripped

variable (definition : Definition)

theorem name_stripped : definition.stripped.name = definition.name := by
  cases definition <;> rfl

theorem spelling?_stripped : definition.stripped.spelling? = definition.spelling? := by
  cases definition <;> rfl

theorem attributes_stripped : definition.stripped.attributes = definition.attributes.stripped := by
  cases definition <;> rfl

/-- The events of a stripped definition differ in labels alone. -/
theorem events_stripped (handle : Handle) :
    (definition.stripped.events handle).map Event.stripped =
      (definition.events handle).map Event.stripped := by
  cases definition <;> simp [events, stripped, Event.stripped]

end Definition

namespace Call

def stripped : Call → Call
  | .defineToken name _ attributes => .defineToken name "" attributes.stripped
  | .defineBinary name _ level => .defineBinary name "" level
  | .register spelling attributes => .register spelling attributes.stripped

/-- A stripped call gives the stripped definition. -/
theorem definition_stripped (call : Call) :
    call.stripped.definition = call.definition.stripped := by
  cases call with
  | defineToken name label attributes => rfl
  | defineBinary name label level =>
      rw [definition, Definition.stripped, Attributes.stripped_binary]
      rfl
  | register spelling attributes => rfl

/-- The calls differ at most in the label of a token type and in the unnamed bit of the flags. -/
inductive Alike : Call → Call → Prop where
  | defineToken (name one other : String) {first second : Attributes}
      (same : first.stripped = second.stripped) :
      Alike (.defineToken name one first) (.defineToken name other second)
  | defineBinary (name one other : String) (level : UInt8) :
      Alike (.defineBinary name one level) (.defineBinary name other level)
  | register (spelling : String) {first second : Attributes}
      (same : first.stripped = second.stripped) :
      Alike (.register spelling first) (.register spelling second)

/-- Calls that differ in labels and the unnamed flag alone are the same when stripped. -/
theorem Alike.stripped_eq {first second : Call} (alike : first.Alike second) :
    first.stripped = second.stripped := by
  cases alike with
  | defineToken name one other same => rw [stripped, stripped, same]
  | defineBinary name one other level => rfl
  | register spelling same => rw [stripped, stripped, same]

end Call

namespace Registry

/-- Both tables as they are without labels and without the unnamed bits. -/
def stripped (registry : Registry Hook) : Registry Hook :=
  { registry with
    catalog :=
      { registry.catalog with
        descriptors := registry.catalog.descriptors.map Descriptor.stripped } }

variable (registry : Registry Hook)

theorem size_stripped : registry.stripped.catalog.size = registry.catalog.size :=
  Array.size_map

/-- A lookup gives the stripped descriptor. -/
theorem descriptor?_stripped (handle : Handle) :
    registry.stripped.descriptor? handle = (registry.descriptor? handle).map Descriptor.stripped :=
  Array.getElem?_map

/-- Nothing that is dropped speaks against a definition. -/
theorem refusal?_stripped (definition : Definition) :
    registry.stripped.refusal? definition.stripped = registry.refusal? definition := by
  rw [refusal?, refusal?, Catalog.refusal?, Catalog.refusal?, Catalog.objection?,
    Catalog.objection?, size_stripped, definition.name_stripped, definition.spelling?_stripped,
    definition.attributes_stripped, Attributes.fault?_stripped]
  rfl

/-- A stripped definition is accepted alike. -/
theorem accept_stripped (definition : Definition) :
    registry.stripped.accept definition.stripped = (registry.accept definition).stripped := by
  simp only [accept, Catalog.append, size_stripped, definition.name_stripped,
    definition.spelling?_stripped, Definition.attributes_stripped, Attributes.has_stripped]
  simp only [stripped, Array.map_push]
  cases definition <;> rfl

/-- The outcome is the same but for what is dropped. -/
theorem outcome_stripped (definition : Definition) :
    (registry.stripped.outcome definition.stripped).1 = (registry.outcome definition).1.stripped ∧
      (registry.stripped.outcome definition.stripped).2.stripped =
        (registry.outcome definition).2.stripped := by
  have judged := registry.refusal?_stripped definition
  cases refused : registry.refusal? definition with
  | some error =>
      rw [outcome_of_refusal refused, outcome_of_refusal (judged.trans refused)]
      exact ⟨rfl, rfl⟩
  | none =>
      rw [outcome_of_no_refusal refused, outcome_of_no_refusal (judged.trans refused),
        accept_stripped, size_stripped]
      refine ⟨rfl, ?_⟩
      rw [Report.stripped, definition.events_stripped]
      rfl

/-- A stripped call does to a stripped registry what the call does. -/
theorem call_stripped (call : Call) :
    (registry.stripped.call call.stripped).1 = (registry.call call).1.stripped ∧
      (registry.stripped.call call.stripped).2.stripped = (registry.call call).2.stripped := by
  rw [call_eq_outcome, call_eq_outcome, call.definition_stripped]
  exact registry.outcome_stripped call.definition

end Registry

/-- The registries give the same answer to every question but that for a label, and what differs between
them is dropped when they are stripped. -/
structure Registry.AnswersAlike (first second : Registry Hook) : Prop where
  handle : ∀ name, first.handle? name = second.handle? name
  name : ∀ handle, first.catalog.name? handle = second.catalog.name? handle
  keyword : ∀ word, first.keyword? word = second.keyword? word
  isKeyword : ∀ word, first.isKeyword word = second.isKeyword word
  handles : first.keywords.handles = second.keywords.handles
  size : first.catalog.size = second.catalog.size
  spelling : ∀ handle, (first.descriptor? handle).map Descriptor.keyword =
    (second.descriptor? handle).map Descriptor.keyword
  flag : ∀ handle flag, (first.descriptor? handle).map (·.has flag) =
    (second.descriptor? handle).map (·.has flag)
  level : ∀ handle, (first.descriptor? handle).map Descriptor.level =
    (second.descriptor? handle).map Descriptor.level
  tier : ∀ handle, first.tier? handle = second.tier? handle
  associativity : ∀ handle, first.associativity? handle = second.associativity? handle
  slash : ∀ previous, first.slashStartsRegex previous = second.slashStartsRegex previous
  rest : first.stripped = second.stripped

namespace Registry

/-- What stripping keeps of a descriptor is kept of the descriptor under a handle. -/
theorem map_descriptor?_stripped (registry : Registry Hook) {Value : Type}
    {value : Descriptor Hook → Value}
    (kept : ∀ descriptor : Descriptor Hook, value descriptor.stripped = value descriptor)
    (handle : Handle) :
    (registry.stripped.descriptor? handle).map value = (registry.descriptor? handle).map value := by
  rw [descriptor?_stripped, Option.map_map]
  exact congrArg (fun read => (registry.descriptor? handle).map read) (funext kept)

theorem tier?_stripped (registry : Registry Hook) (handle : Handle) :
    registry.stripped.tier? handle = registry.tier? handle := by
  rw [tier?, tier?, descriptor?_stripped, Option.bind_map]
  exact congrArg _ (funext Descriptor.tier?_stripped)

theorem associativity?_stripped (registry : Registry Hook) (handle : Handle) :
    registry.stripped.associativity? handle = registry.associativity? handle := by
  rw [associativity?, associativity?, descriptor?_stripped, Option.bind_map]
  exact congrArg _ (funext Descriptor.associativity?_stripped)

/-- Stripping keeps the decision on the slash. -/
theorem slashStartsRegex_stripped (registry : Registry Hook) (previous : Option Handle) :
    registry.stripped.slashStartsRegex previous = registry.slashStartsRegex previous := by
  cases previous with
  | none => rfl
  | some handle =>
      rw [slashStartsRegex, slashStartsRegex, descriptor?_stripped]
      cases registry.descriptor? handle with
      | none => rfl
      | some descriptor => exact descriptor.has_stripped .beforeExpr

/-- Registries that are the same when stripped answer alike, since no answer is taken from what is
dropped. -/
theorem answersAlike_of_stripped_eq {first second : Registry Hook}
    (same : first.stripped = second.stripped) : first.AnswersAlike second where
  handle := by
    intro name
    show first.stripped.handle? name = second.stripped.handle? name
    rw [same]
  name := by
    intro handle
    show first.stripped.catalog.name? handle = second.stripped.catalog.name? handle
    rw [same]
  keyword := by
    intro word
    show first.stripped.keyword? word = second.stripped.keyword? word
    rw [same]
  isKeyword := by
    intro word
    show first.stripped.isKeyword word = second.stripped.isKeyword word
    rw [same]
  handles := by
    show first.stripped.keywords.handles = second.stripped.keywords.handles
    rw [same]
  size := by
    rw [← first.size_stripped, same, size_stripped]
  spelling := by
    intro handle
    rw [← first.map_descriptor?_stripped (fun _ => rfl), same,
      map_descriptor?_stripped _ (fun _ => rfl)]
  flag := by
    intro handle flag
    rw [← first.map_descriptor?_stripped (·.has_stripped flag), same,
      map_descriptor?_stripped _ (·.has_stripped flag)]
  level := by
    intro handle
    rw [← first.map_descriptor?_stripped (fun _ => rfl), same,
      map_descriptor?_stripped _ (fun _ => rfl)]
  tier := by
    intro handle
    rw [← first.tier?_stripped, same, tier?_stripped]
  associativity := by
    intro handle
    rw [← first.associativity?_stripped, same, associativity?_stripped]
  slash := by
    intro previous
    rw [← first.slashStartsRegex_stripped, same, slashStartsRegex_stripped]
  rest := same

/-- Each call of the run leaves its report and the registry after it. -/
def callEach (registry : Registry Hook) : List Call → List (Report Handle × Registry Hook)
  | [] => []
  | call :: calls =>
      ((registry.call call).2, (registry.call call).1) :: (registry.call call).1.callEach calls

/-- One step of two runs keeps them the same but for what is dropped. -/
theorem call_alike {first second : Registry Hook} (same : first.stripped = second.stripped)
    {one other : Call} (alike : one.Alike other) :
    (first.call one).1.stripped = (second.call other).1.stripped ∧
      (first.call one).2.stripped = (second.call other).2.stripped := by
  obtain ⟨firstState, firstReport⟩ := first.call_stripped one
  obtain ⟨secondState, secondReport⟩ := second.call_stripped other
  rw [same, alike.stripped_eq] at firstState firstReport
  exact ⟨firstState.symm.trans secondState, firstReport.symm.trans secondReport⟩

/-- The steps have the same result and lead to registries that answer alike. Their events differ in
labels alone. -/
structure StepAlike (one other : Report Handle × Registry Hook) : Prop where
  result : one.1.result = other.1.result
  report : one.1.stripped = other.1.stripped
  answers : one.2.AnswersAlike other.2

/-- Two runs whose calls are alike answer alike after every step. -/
theorem callEach_alike {before after : Registry Hook} (same : before.stripped = after.stripped)
    {first second : List Call} (alike : List.Forall₂ Call.Alike first second) :
    List.Forall₂ StepAlike (before.callEach first) (after.callEach second) := by
  induction alike generalizing before after with
  | nil => exact .nil
  | cons head _ ih =>
      obtain ⟨state, report⟩ := call_alike same head
      have result := congrArg Report.result report
      exact .cons ⟨result, report, answersAlike_of_stripped_eq state⟩ (ih state)

/-- Two runs from the new registry whose calls differ at most in labels and in the unnamed bit agree
step by step. -/
theorem runs_agree_without_labels {first second : List Call}
    (alike : List.Forall₂ Call.Alike first second) :
    List.Forall₂ StepAlike ((new Hook).callEach first) ((new Hook).callEach second) :=
  callEach_alike rfl alike

/-- The second run has other labels and carries the unnamed bit elsewhere. A repeated name, a level
without its flag and a repeated word are refused in both. -/
theorem runs_agree_of_relabeled_calls :
    let first : List Call := [.defineToken "pipe" "|>" ⟨⟨129⟩, some 5⟩, .defineBinary "pipe" "||" 4,
      .defineToken "cross" "x" ⟨⟨128⟩, some 3⟩, .register "let" ⟨⟨128⟩, none⟩, .register "let" .plain]
    let second : List Call := [.defineToken "pipe" "->" ⟨⟨1⟩, some 5⟩, .defineBinary "pipe" "" 4,
      .defineToken "cross" "let" ⟨⟨0⟩, some 3⟩, .register "let" .plain, .register "let" ⟨⟨128⟩, none⟩]
    List.Forall₂ Call.Alike first second ∧
      List.Forall₂ StepAlike ((new String).callEach first) ((new String).callEach second) ∧
      ((new String).callEach first).map (·.1.result) =
        [.ok (.ofPosition 40), .error (.duplicateName "pipe"),
          .error (.inconsistentFlags "cross" .closedBinary), .ok (.ofPosition 41),
          .error (.duplicateKeyword "let")] := by
  intro first second
  have alike : List.Forall₂ Call.Alike first second :=
    .cons (.defineToken _ _ _ (by decide)) (.cons (.defineBinary _ _ _ _)
      (.cons (.defineToken _ _ _ (by decide)) (.cons (.register _ (by decide))
        (.cons (.register _ (by decide)) .nil))))
  exact ⟨alike, runs_agree_without_labels alike, by decide +kernel⟩

end Registry

end Lexicon
