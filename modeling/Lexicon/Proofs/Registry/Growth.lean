import Lexicon.Proofs.Catalog.Tracking
import Lexicon.Proofs.Expression.Lexing

/-! Registrations only add to a registry, so what a lookup has found once it finds for ever. -/

namespace Lexicon

variable {Hook : Type}

namespace Registry

/-- The catalog of a registry passes through registrations only. -/
theorem catalog_reachable_of_registerAll {registry built : Registry Hook}
    (reachable : registry.catalog.Reachable) (events : Array Event) (words : List String)
    (done : (registry.registerAll events words).result = .ok built) :
    built.catalog.Reachable := by
  induction words generalizing registry events with
  | nil =>
      cases done
      exact reachable
  | cons word words ih =>
      have next := reachable.register registry.keywords word (Keyword.attributes word)
      cases result : (registry.register word (Keyword.attributes word)).2.result with
      | error error =>
          rw [registerAll_of_register_error result] at done
          cases done
      | ok handle =>
          obtain ⟨more, continued⟩ := registerAll_of_register_ok word result events words
          rw [continued] at done
          exact ih next more done

/-- The catalog of a reachable registry is reachable. -/
theorem Reachable.catalog {registry : Registry Hook} (reachable : registry.Reachable) :
    registry.catalog.Reachable := by
  induction reachable with
  | new => exact .new
  | ofWords built => exact catalog_reachable_of_registerAll .new _ _ built
  | ofOptions built => exact catalog_reachable_of_registerAll .new _ _ built
  | @register registry _ spelling attributes ih =>
      exact ih.register registry.keywords spelling attributes

/-- Hooks may be attached before and between registrations. -/
inductive Tracked : Registry Hook → Prop where
  | reachable {registry : Registry Hook} (reachable : registry.Reachable) : Tracked registry
  | register {registry : Registry Hook} (tracked : Tracked registry) (spelling : String)
      (attributes : Attributes) : Tracked (registry.register spelling attributes).1
  | attach {registry : Registry Hook} (tracked : Tracked registry) (handle : Handle) (hook : Hook) :
      Tracked ⟨(registry.catalog.attach handle hook).1, registry.keywords⟩

/-- The catalog of a tracked registry is tracked. -/
theorem Tracked.catalog {registry : Registry Hook} (tracked : registry.Tracked) :
    registry.catalog.Tracked := by
  induction tracked with
  | reachable reachable => exact reachable.catalog.tracked
  | @register registry _ spelling attributes ih =>
      exact ih.register registry.keywords spelling attributes
  | attach _ handle hook ih => exact ih.attach handle hook

end Registry

/-- An accepted word stands with the handle that it got. -/
structure Admission where
  word : Reserved
  handle : Handle
  deriving DecidableEq, Repr

namespace Admission

def descriptor (admission : Admission) : Descriptor Hook :=
  ⟨admission.handle, admission.word.spelling, some admission.word.spelling,
    admission.word.attributes, none⟩

def entry (admission : Admission) : Entry Hook :=
  (Keyword.name admission.word.spelling, admission.descriptor)

end Admission

namespace Registry

/-- Each word is registered whether or not the words before it were accepted. -/
def registerEach (registry : Registry Hook) : List Reserved → Registry Hook × List Admission
  | [] => (registry, [])
  | word :: words =>
      let (next, report) := registry.register word.spelling word.attributes
      let (last, admissions) := next.registerEach words
      match report.result with
      | .ok handle => (last, ⟨word, handle⟩ :: admissions)
      | .error _ => (last, admissions)

/-- The admissions follow in both tables, and their handles count on from the size. -/
structure Grows (registry : Registry Hook) (admissions : List Admission) (last : Registry Hook) :
    Prop where
  entries : last.catalog.entries = registry.catalog.entries ++ admissions.map Admission.entry
  keywords : last.keywords.toList = registry.keywords.toList ++
    admissions.map fun admission => (admission.word.spelling, admission.handle)
  size : last.catalog.size = registry.catalog.size + admissions.length
  placed : admissions.map (fun admission => admission.handle.position) =
    List.range' registry.catalog.size admissions.length

/-- A registry has grown by nothing from itself. -/
theorem Grows.refl (registry : Registry Hook) : registry.Grows [] registry := by
  refine ⟨?_, ?_, rfl, rfl⟩
  · rw [List.map_nil, List.append_nil]
  · rw [List.map_nil, List.append_nil]

/-- Growth adds up. -/
theorem Grows.trans {registry middle last : Registry Hook} {first second : List Admission}
    (before : registry.Grows first middle) (after : middle.Grows second last) :
    registry.Grows (first ++ second) last where
  entries := by
    rw [after.entries, before.entries, List.map_append, List.append_assoc]
  keywords := by
    rw [after.keywords, before.keywords, List.map_append, List.append_assoc]
  size := by
    rw [after.size, before.size, List.length_append, Nat.add_assoc]
  placed := by
    rw [List.map_append, before.placed, after.placed, before.size, List.length_append,
      List.range'_append_1]

/-- A registration is refused without a trace, or its word is admitted. -/
theorem register_grows {registry : Registry Hook} (numbered : registry.catalog.Numbered)
    (word : Reserved) :
    (∃ error, (registry.register word.spelling word.attributes).2.result = .error error ∧
      (registry.register word.spelling word.attributes).1 = registry) ∨
    ∃ handle, (registry.register word.spelling word.attributes).2.result = .ok handle ∧
      registry.Grows [⟨word, handle⟩] (registry.register word.spelling word.attributes).1 := by
  rcases registry.register_cases word.spelling word.attributes with
    ⟨error, events, refused⟩ | ⟨_, fresh, accepted, room, events, registered⟩
  · left
    rw [refused]
    exact ⟨error, rfl, rfl⟩
  · right
    rw [registered]
    obtain ⟨entries, represents⟩ := numbered.represents
    have appended := represents.append_of_accepted accepted room word.spelling
    refine ⟨_, rfl, ?_, ?_, ?_, ?_⟩
    · rw [appended.entries_eq, represents.entries_eq]
      rfl
    · exact KeywordIndex.toList_insert fresh _
    · exact Catalog.size_append _ _ _ _ _
    · exact congrArg (fun position => [position]) (Handle.position_ofPosition room)

/-- The registrations of a list of words grow the registry by the words that were accepted. -/
theorem registerEach_grows {registry : Registry Hook} (numbered : registry.catalog.Numbered)
    (words : List Reserved) :
    (registry.registerEach words).1.catalog.Numbered ∧
      registry.Grows (registry.registerEach words).2 (registry.registerEach words).1 := by
  induction words generalizing registry with
  | nil => exact ⟨numbered, .refl registry⟩
  | cons word words ih =>
      have next := numbered.register registry.keywords word.spelling word.attributes
      obtain ⟨lastNumbered, grows⟩ := ih next
      rw [registerEach]
      rcases register_grows numbered word with ⟨error, refused, same⟩ | ⟨handle, accepted, step⟩
      · have step : registry.Grows [] (registry.register word.spelling word.attributes).1 := by
          rw [same]
          exact .refl registry
        simp only [refused]
        exact ⟨lastNumbered, step.trans grows⟩
      · simp only [accepted]
        exact ⟨lastNumbered, step.trans grows⟩

namespace Grows

variable {registry last : Registry Hook} {admissions : List Admission}

/-- The handle of an admission counts the entries before it. -/
theorem position_of_getElem? (grows : registry.Grows admissions last) {index : Nat}
    {admission : Admission} (stands : admissions[index]? = some admission) :
    admission.handle.position = registry.catalog.size + index := by
  have inside := (List.getElem?_eq_some_iff.mp stands).1
  have place := congrArg (fun positions => positions[index]?) grows.placed
  simp only [List.getElem?_map, stands, Option.map_some] at place
  rw [List.getElem?_range' inside, Nat.one_mul] at place
  exact Option.some.inj place

/-- At the place of a handle stands the entry of before or that of the admission with this handle. -/
theorem getElem?_entries (grows : registry.Grows admissions last)
    (numbered : registry.catalog.Numbered) (handle : Handle) (entry : Entry Hook) :
    last.catalog.entries[handle.position]? = some entry ↔
      registry.catalog.entries[handle.position]? = some entry ∨
        ∃ admission ∈ admissions, admission.handle = handle ∧ admission.entry = entry := by
  rw [grows.entries, List.getElem?_append, numbered.length_entries]
  split
  · rename_i before
    refine ⟨.inl, ?_⟩
    intro either
    rcases either with old | ⟨admission, member, rfl, _⟩
    · exact old
    · obtain ⟨index, stands⟩ := List.getElem?_of_mem member
      have place := grows.position_of_getElem? stands
      omega
  · rename_i after
    have none_before : registry.catalog.entries[handle.position]? = none := by
      rw [List.getElem?_eq_none_iff, numbered.length_entries]
      exact Nat.le_of_not_lt after
    rw [none_before, List.getElem?_map, Option.map_eq_some_iff]
    constructor
    · intro found
      obtain ⟨admission, stands, same⟩ := found
      have place := grows.position_of_getElem? stands
      refine .inr ⟨admission, List.mem_of_getElem? stands, ?_, same⟩
      rw [← Handle.ofPosition_position admission.handle, ← Handle.ofPosition_position handle]
      congr 1
      omega
    · intro either
      rcases either with impossible | ⟨admission, member, rfl, same⟩
      · cases impossible
      · obtain ⟨index, stands⟩ := List.getElem?_of_mem member
        have place := grows.position_of_getElem? stands
        have found : admission.handle.position - registry.catalog.size = index := by omega
        exact ⟨admission, by rw [found, stands], same⟩

/-- What is read off the entry at the place of a handle was there before or comes from an
admission. -/
theorem map_getElem?_entries (grows : registry.Grows admissions last)
    (numbered : registry.catalog.Numbered) {Value : Type} (value : Entry Hook → Value)
    (handle : Handle) (found : Value) :
    last.catalog.entries[handle.position]?.map value = some found ↔
      registry.catalog.entries[handle.position]?.map value = some found ∨
        ∃ admission ∈ admissions, admission.handle = handle ∧ value admission.entry = found := by
  simp only [Option.map_eq_some_iff, grows.getElem?_entries numbered]
  constructor
  · intro reads
    obtain ⟨entry, old | ⟨admission, member, own, rfl⟩, same⟩ := reads
    · exact .inl ⟨entry, old, same⟩
    · exact .inr ⟨admission, member, own, same⟩
  · intro either
    rcases either with ⟨entry, old, same⟩ | ⟨admission, member, own, same⟩
    · exact ⟨entry, .inl old, same⟩
    · exact ⟨admission.entry, .inr ⟨admission, member, own, rfl⟩, same⟩

/-- What is read off a descriptor was there before or comes from an admission. -/
theorem bind_descriptor?_eq_some_iff (grows : registry.Grows admissions last)
    (numbered : registry.catalog.Numbered) (lastNumbered : last.catalog.Numbered) {Value : Type}
    (value : Descriptor Hook → Option Value) (handle : Handle) (found : Value) :
    (last.descriptor? handle).bind value = some found ↔
      (registry.descriptor? handle).bind value = some found ∨
        ∃ admission ∈ admissions, admission.handle = handle ∧
          value admission.descriptor = some found := by
  have each : ∀ {state : Registry Hook}, state.catalog.Numbered →
      ((state.descriptor? handle).bind value = some found ↔
        state.catalog.entries[handle.position]?.map (fun entry => value entry.2) =
          some (some found)) := by
    intro state stateNumbered
    rw [descriptor?, stateNumbered.descriptor?_eq]
    cases state.catalog.entries[handle.position]? <;> simp
  rw [each numbered, each lastNumbered]
  exact grows.map_getElem?_entries numbered _ handle (some found)

/-- A spelling finds its handle of before or that of its admission. -/
theorem keyword?_eq_some_iff (grows : registry.Grows admissions last) (word : String)
    (handle : Handle) :
    last.keyword? word = some handle ↔ registry.keyword? word = some handle ∨
      ∃ admission ∈ admissions, admission.word.spelling = word ∧ admission.handle = handle := by
  simp only [keyword?, KeywordIndex.get?_eq_some_iff, grows.keywords, List.mem_append,
    List.mem_map, Prod.mk.injEq]

/-- The handles of the accepted words come last. -/
theorem handles_eq (grows : registry.Grows admissions last) :
    last.keywords.handles = registry.keywords.handles ++ admissions.map Admission.handle := by
  rw [KeywordIndex.handles_eq_map, KeywordIndex.handles_eq_map, grows.keywords, List.map_append,
    List.map_map]
  rfl

end Grows

/-- All that a registry answered its extension answers alike. Beyond that the extension knows the
admissions, and nothing else. -/
structure Extends (registry : Registry Hook) (admissions : List Admission)
    (last : Registry Hook) : Prop where
  entries : last.catalog.entries = registry.catalog.entries ++ admissions.map Admission.entry
  handles : last.keywords.handles =
    registry.keywords.handles ++ admissions.map Admission.handle
  keyword : ∀ word handle, last.keyword? word = some handle ↔
    registry.keyword? word = some handle ∨
      ∃ admission ∈ admissions, admission.word.spelling = word ∧ admission.handle = handle
  handle : ∀ name handle, last.handle? name = some handle ↔
    registry.handle? name = some handle ∨
      ∃ admission ∈ admissions, admission.handle = handle ∧
        Keyword.name admission.word.spelling = name
  name : ∀ handle name, last.catalog.name? handle = some name ↔
    registry.catalog.name? handle = some name ∨
      ∃ admission ∈ admissions, admission.handle = handle ∧
        Keyword.name admission.word.spelling = name
  descriptor : ∀ handle descriptor, last.descriptor? handle = some descriptor ↔
    registry.descriptor? handle = some descriptor ∨
      ∃ admission ∈ admissions, admission.handle = handle ∧ admission.descriptor = descriptor
  tier : ∀ handle tier, last.tier? handle = some tier ↔
    registry.tier? handle = some tier ∨
      ∃ admission ∈ admissions, admission.handle = handle ∧
        (admission.descriptor : Descriptor Hook).tier? = some tier
  associativity : ∀ handle associativity, last.associativity? handle = some associativity ↔
    registry.associativity? handle = some associativity ∨
      ∃ admission ∈ admissions, admission.handle = handle ∧
        (admission.descriptor : Descriptor Hook).associativity? = some associativity
  slash : ∀ previous : Option Handle,
    (∀ handle, previous = some handle → (registry.descriptor? handle).isSome = true) →
      last.slashStartsRegex previous = registry.slashStartsRegex previous

/-- Registrations, accepted or refused, extend a tracked registry by the words that they admitted. -/
theorem Tracked.registerEach_extends {registry : Registry Hook} (tracked : registry.Tracked)
    (words : List Reserved) :
    registry.Extends (registry.registerEach words).2 (registry.registerEach words).1 := by
  have numbered := tracked.catalog.numbered
  obtain ⟨lastNumbered, grows⟩ := registerEach_grows numbered words
  generalize (registry.registerEach words).1 = last at lastNumbered grows ⊢
  generalize (registry.registerEach words).2 = admissions at grows ⊢
  have descriptor := grows.bind_descriptor?_eq_some_iff numbered lastNumbered some
  simp only [Option.bind_fun_some, Option.some_inj] at descriptor
  refine ⟨grows.entries, grows.handles_eq, grows.keyword?_eq_some_iff, ?_, ?_, descriptor, ?_, ?_,
    ?_⟩
  · intro name handle
    rw [handle?, handle?, numbered.handle?_eq_some_iff, lastNumbered.handle?_eq_some_iff]
    exact grows.map_getElem?_entries numbered Prod.fst handle name
  · intro handle name
    rw [numbered.name?_eq, lastNumbered.name?_eq]
    exact grows.map_getElem?_entries numbered Prod.fst handle name
  · exact grows.bind_descriptor?_eq_some_iff numbered lastNumbered Descriptor.tier?
  · exact grows.bind_descriptor?_eq_some_iff numbered lastNumbered Descriptor.associativity?
  · intro previous held
    cases previous with
    | none => rfl
    | some handle =>
        obtain ⟨known, stands⟩ := Option.isSome_iff_exists.mp (held handle rfl)
        have kept := (descriptor handle known).mpr (.inl stands)
        rw [slashStartsRegex, slashStartsRegex, stands, kept]

/-- The hook of the first word stays with it when a second word is admitted between two refusals. -/
theorem registerEach_after_attachment :
    let first := ((new String).register "if" .plain).1
    let tracked : Registry String :=
      ⟨(first.catalog.attach (.ofPosition 40) "blocks").1, first.keywords⟩
    let operator : Reserved := ⟨"in", .binary Level.relational⟩
    let words : List Reserved := [⟨"if", .plain⟩, operator, ⟨"", .plain⟩]
    tracked.Tracked ∧ tracked.Extends [⟨operator, .ofPosition 41⟩] (tracked.registerEach words).1 ∧
      (tracked.registerEach words).1.descriptor? (.ofPosition 40) =
        some ⟨.ofPosition 40, "if", some "if", .plain, some "blocks"⟩ := by
  intro first tracked operator words
  have reached : tracked.Tracked := .attach (.register (.reachable .new) _ _) _ _
  have admitted : (tracked.registerEach words).2 = [⟨operator, .ofPosition 41⟩] := by decide +kernel
  have extended := reached.registerEach_extends words
  have before : tracked.descriptor? (.ofPosition 40) =
      some ⟨.ofPosition 40, "if", some "if", .plain, some "blocks"⟩ := by decide +kernel
  have kept := (extended.descriptor _ _).mpr (.inl before)
  rw [admitted] at extended
  exact ⟨reached, extended, kept⟩

end Registry

end Lexicon
