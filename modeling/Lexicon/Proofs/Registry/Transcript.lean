import Lexicon.Proofs.Keyword.Sharing
import Lexicon.Proofs.Registry.Warnings

/-! The events of a run tell what was added to the tables, each entry once and in its order. -/

namespace Lexicon

variable {Hook : Type}

namespace Event

/-- The name of a new entry of the catalog, with its handle. -/
def named? : Event → Option (String × Handle)
  | .defined name _ handle => some (name, handle)
  | _ => none

/-- The label of a new entry of the catalog, with its handle. -/
def labeled? : Event → Option (String × Handle)
  | .defined _ label handle => some (label, handle)
  | _ => none

/-- The new entry of an index. -/
def indexed? : Event → Option (String × Handle)
  | .registered spelling handle => some (spelling, handle)
  | _ => none

/-- The event tells of no entry. -/
def Idle (event : Event) : Prop :=
  event.named? = none ∧ event.labeled? = none ∧ event.indexed? = none

/-- A warning announces no entry. -/
theorem idle_of_warning {event : Event} (warning : event.severity = .warning) : event.Idle := by
  cases event with
  | defined name label handle => cases warning
  | registered spelling handle => cases warning
  | finished tokens keywords => cases warning
  | rejected name error => exact ⟨rfl, rfl, rfl⟩
  | repeated spelling => exact ⟨rfl, rfl, rfl⟩

end Event

namespace Definition

variable (definition : Definition) (handle : Handle)

/-- An accepted definition announces its name once. -/
theorem named?_events :
    (definition.events handle).toList.filterMap Event.named? = [(definition.name, handle)] := by
  cases definition <;> rfl

/-- An accepted definition announces its label once. -/
theorem labeled?_events :
    (definition.events handle).toList.filterMap Event.labeled? = [(definition.label, handle)] := by
  cases definition <;> rfl

/-- Only a keyword goes to the index. -/
theorem indexed?_events : (definition.events handle).toList.filterMap Event.indexed? =
    (definition.spelling?.map fun spelling => (spelling, handle)).toList := by
  cases definition <;> rfl

end Definition

namespace SharedCatalog

variable {Owner : Type} [DecidableEq Owner]

/-- Only a registration has to do with the owner. -/
def call (shared : SharedCatalog Owner Hook) (owner : Owner) :
    Call → SharedCatalog Owner Hook × Report Handle
  | .defineToken name label attributes =>
      (shared.defineToken name label attributes,
        (shared.catalog.defineToken name label attributes).2)
  | .defineBinary name label level =>
      (shared.defineBinary name label level, (shared.catalog.defineBinary name label level).2)
  | .register spelling attributes =>
      (shared.register owner spelling attributes,
        (Registry.register ⟨shared.catalog, shared.keywords owner⟩ spelling attributes).2)

/-- The registry that the owner sees. -/
def registry (shared : SharedCatalog Owner Hook) (owner : Owner) : Registry Hook :=
  ⟨shared.catalog, shared.keywords owner⟩

/-- What becomes of the registry of the owner is shared. -/
theorem call_eq (shared : SharedCatalog Owner Hook) (owner : Owner) (call : Call) :
    shared.call owner call =
      (⟨((shared.registry owner).call call).1.catalog,
        Function.update shared.keywords owner ((shared.registry owner).call call).1.keywords⟩,
        ((shared.registry owner).call call).2) := by
  cases call with
  | defineToken name label attributes =>
      simp only [SharedCatalog.call, Registry.call, registry, Function.update_eq_self]
      rfl
  | defineBinary name label level =>
      simp only [SharedCatalog.call, Registry.call, registry, Function.update_eq_self]
      rfl
  | register spelling attributes => rfl

/-- A refused call leaves the shared catalog as it was. -/
theorem call_of_refusal {shared : SharedCatalog Owner Hook} {owner : Owner} {call : Call}
    {error : TableError} (refused : (shared.registry owner).refusal? call.definition = some error) :
    shared.call owner call = (shared, ⟨.error error, error.warnings⟩) := by
  rw [call_eq, Registry.call_eq_outcome, Registry.outcome_of_refusal refused]
  simp only [registry, Function.update_eq_self]

/-- A call that is not refused goes to the tables of its owner. -/
theorem call_of_no_refusal {shared : SharedCatalog Owner Hook} {owner : Owner} {call : Call}
    (accepted : (shared.registry owner).refusal? call.definition = none) :
    let next := (shared.registry owner).accept call.definition
    let handle := Handle.ofPosition shared.catalog.size
    shared.call owner call = (⟨next.catalog, Function.update shared.keywords owner next.keywords⟩,
      ⟨.ok handle, call.definition.events handle⟩) := by
  rw [call_eq, Registry.call_eq_outcome, Registry.outcome_of_no_refusal accepted]
  rfl

/-- Each call of the run is kept with its owner and its report. -/
def callAll (shared : SharedCatalog Owner Hook) :
    List (Owner × Call) → SharedCatalog Owner Hook × List (Owner × Report Handle)
  | [] => (shared, [])
  | (owner, call) :: calls =>
      let (next, report) := shared.call owner call
      let (last, reports) := next.callAll calls
      (last, (owner, report) :: reports)

/-- The events of a run in their order, each with the owner of its call. -/
def log (reports : List (Owner × Report Handle)) : List (Owner × Event) :=
  reports.flatMap fun (owner, report) => report.events.toList.map fun event => (owner, event)

/-- The log names what the tables have gained. The handles of the new entries count on from the size of
the catalog. -/
structure Transcribes (before : SharedCatalog Owner Hook) (log : List (Owner × Event))
    (after : SharedCatalog Owner Hook) : Prop where
  names : after.catalog.names.toList =
    before.catalog.names.toList ++ log.filterMap (·.2.named?)
  labels : after.catalog.descriptors.toList.map (fun entry => (entry.label, entry.handle)) =
    before.catalog.descriptors.toList.map (fun entry => (entry.label, entry.handle)) ++
      log.filterMap (·.2.labeled?)
  words : ∀ owner, (after.keywords owner).toList = (before.keywords owner).toList ++
    (log.filter (·.1 = owner)).filterMap (·.2.indexed?)
  size : after.catalog.size = before.catalog.size + (log.filterMap (·.2.named?)).length
  places : (log.filterMap (·.2.named?)).map (·.2.position) =
    List.range' before.catalog.size (log.filterMap (·.2.named?)).length

namespace Transcribes

variable {before middle after : SharedCatalog Owner Hook} {log more : List (Owner × Event)}

/-- Where no event tells of an entry, none is added. -/
theorem of_idle (shared : SharedCatalog Owner Hook) (idle : ∀ line ∈ log, line.2.Idle) :
    shared.Transcribes log shared := by
  have named : log.filterMap (·.2.named?) = [] :=
    List.filterMap_eq_nil_iff.mpr fun line member => (idle line member).1
  have labeled : log.filterMap (·.2.labeled?) = [] :=
    List.filterMap_eq_nil_iff.mpr fun line member => (idle line member).2.1
  refine ⟨?_, ?_, ?_, ?_, ?_⟩
  · rw [named, List.append_nil]
  · rw [labeled, List.append_nil]
  · intro owner
    have indexed : (log.filter (·.1 = owner)).filterMap (·.2.indexed?) = [] :=
      List.filterMap_eq_nil_iff.mpr fun line member =>
        (idle line (List.mem_of_mem_filter member)).2.2
    rw [indexed, List.append_nil]
  · rw [named]
    rfl
  · rw [named]
    rfl

/-- The logs of two runs, one after the other, make up one log. -/
theorem trans (first : before.Transcribes log middle) (second : middle.Transcribes more after) :
    before.Transcribes (log ++ more) after where
  names := by
    rw [second.names, first.names, List.filterMap_append, List.append_assoc]
  labels := by
    rw [second.labels, first.labels, List.filterMap_append, List.append_assoc]
  words := by
    intro owner
    rw [second.words, first.words, List.filter_append, List.filterMap_append, List.append_assoc]
  size := by
    rw [second.size, first.size, List.filterMap_append, List.length_append, Nat.add_assoc]
  places := by
    rw [List.filterMap_append, List.map_append, first.places, second.places, first.size,
      List.length_append, List.range'_append_1]

end Transcribes

section Single

variable {owner : Owner} {report : Report Handle}

omit [DecidableEq Owner]

theorem log_singleton : log [(owner, report)] = report.events.toList.map fun event => (owner, event) :=
  List.flatMap_singleton _ _

theorem filterMap_log_singleton {Value : Type} (value : Event → Option Value) :
    (log [(owner, report)]).filterMap (fun line => value line.2) =
      report.events.toList.filterMap value := by
  rw [log_singleton, List.filterMap_map]
  rfl

end Single

theorem filter_log_self {owner : Owner} {report : Report Handle} :
    (log [(owner, report)]).filter (·.1 = owner) = log [(owner, report)] := by
  rw [log_singleton, List.filter_eq_self]
  simp

theorem filter_log_of_ne {owner other : Owner} (own : other ≠ owner) {report : Report Handle} :
    (log [(owner, report)]).filter (·.1 = other) = [] := by
  rw [log_singleton, List.filter_eq_nil_iff]
  simp [own.symm]

/-- One call adds what its events tell of. -/
theorem call_transcribes (shared : SharedCatalog Owner Hook) (owner : Owner) (call : Call) :
    shared.Transcribes (log [(owner, (shared.call owner call).2)]) (shared.call owner call).1 := by
  cases refused : (shared.registry owner).refusal? call.definition with
  | some error =>
      rw [call_of_refusal refused]
      apply Transcribes.of_idle
      rw [log_singleton, List.forall_mem_map]
      intro event member
      exact Event.idle_of_warning (error.severity_of_mem_warnings event member)
  | none =>
      rw [call_of_no_refusal refused]
      have room := ((Registry.refusal?_eq_none_iff _ _).mp refused).2.2
      refine ⟨?_, ?_, ?_, ?_, ?_⟩
      · rw [filterMap_log_singleton, Definition.named?_events]
        exact Registry.names_accept refused
      · rw [filterMap_log_singleton, Definition.labeled?_events, Registry.descriptors_accept,
          List.map_append]
        rfl
      · -- The word goes to the index of its owner, and the other indexes have no event.
        intro other
        dsimp only
        by_cases own : other = owner
        · rw [own, Function.update_self, filter_log_self, filterMap_log_singleton,
            Definition.indexed?_events]
          exact Registry.keywords_accept refused
        · rw [Function.update_of_ne own, filter_log_of_ne own]
          exact (List.append_nil _).symm
      · rw [filterMap_log_singleton, Definition.named?_events]
        exact Catalog.size_append _ _ _ _ _
      · rw [filterMap_log_singleton, Definition.named?_events]
        exact congrArg (fun position => [position]) (Handle.position_ofPosition room)

/-- A run adds what its log tells of. -/
theorem callAll_transcribes (shared : SharedCatalog Owner Hook) (calls : List (Owner × Call)) :
    shared.Transcribes (log (shared.callAll calls).2) (shared.callAll calls).1 := by
  induction calls generalizing shared with
  | nil => exact .of_idle shared nofun
  | cons first calls ih =>
      obtain ⟨owner, call⟩ := first
      have step := shared.call_transcribes owner call
      have rest := ih (shared.call owner call).1
      have joined := step.trans rest
      rw [log, log, ← List.flatMap_append] at joined
      exact joined

/-- No refusal of a run tells of an entry. -/
theorem idle_of_error (shared : SharedCatalog Owner Hook) (calls : List (Owner × Call)) :
    ∀ line ∈ (shared.callAll calls).2, ∀ error, line.2.result = .error error →
      ∀ event ∈ line.2.events.toList, event.Idle := by
  induction calls generalizing shared with
  | nil => nofun
  | cons first calls ih =>
      obtain ⟨owner, call⟩ := first
      rw [callAll, List.forall_mem_cons]
      refine ⟨?_, ih _⟩
      intro error failed event member
      rw [call_eq] at failed member
      rw [(Registry.call_of_error failed).2] at member
      exact Event.idle_of_warning (error.severity_of_mem_warnings event member)

end SharedCatalog

namespace Registry

/-- The kinds are defined in their order. -/
def kindEvents : List Event :=
  Kind.all.zipIdx.map fun placed =>
    .defined placed.1.name placed.1.label (.ofPosition placed.2)

/-- A new catalog announces the kinds. -/
theorem newEvents_eq : (Catalog.newEvents Hook).toList = kindEvents := by
  rw [Catalog.newEvents_eq_empty]
  decide +kernel

/-- The events announce the kinds and then the words. The handles of the words count on from forty, and
none of them wraps around. -/
structure Announces (events : List Event) (words : List String) (ending : List Event) : Prop where
  order : events = kindEvents ++ announcements 40 words ++ ending
  places : ∀ index < words.length, (Handle.ofPosition (40 + index)).position = 40 + index

/-- A build that succeeds announces every word and then its sizes. One that fails announces the words
before the first fault, warns as the error does, and tells no sizes. -/
structure Recounts (report : Report (Registry Hook)) (words : List String) : Prop where
  built : ∀ registry, report.result = .ok registry → (∀ index, faultAt? words index = none) ∧
    Announces report.events.toList words [.finished (40 + words.length) words.length]
  ended : ∀ error, report.result = .error error → ∃ index,
    IsLeast {index | faultAt? words index ≠ none} index ∧ faultAt? words index = some error ∧
      Announces report.events.toList (words.take index) error.warnings.toList
  finished : (∃ event ∈ report.events.toList, event.severity = .debug) ↔
    ∃ registry, report.result = .ok registry

/-- The kinds are announced as traces. -/
theorem severity_of_mem_kindEvents {event : Event} (member : event ∈ kindEvents) :
    event.severity = .trace := by
  obtain ⟨placed, _, rfl⟩ := List.mem_map.mp member
  rfl

/-- The words are announced as traces. -/
theorem severity_of_mem_announcements {position : Nat} {words : List String} {event : Event}
    (member : event ∈ announcements position words) : event.severity = .trace := by
  obtain ⟨placed, _, among⟩ := List.mem_flatMap.mp member
  simp only [List.mem_cons, List.not_mem_nil, or_false] at among
  rcases among with rfl | rfl <;> rfl

/-- Only the ending can tell sizes. -/
theorem Announces.exists_debug_iff {events ending : List Event} {words : List String}
    (announces : Announces events words ending) :
    (∃ event ∈ events, event.severity = .debug) ↔ ∃ event ∈ ending, event.severity = .debug := by
  rw [announces.order]
  constructor
  · intro told
    obtain ⟨event, member, debug⟩ := told
    rcases List.mem_append.mp member with before | last
    · rcases List.mem_append.mp before with kind | word
      · cases (severity_of_mem_kindEvents kind).symm.trans debug
      · cases (severity_of_mem_announcements word).symm.trans debug
    · exact ⟨event, last, debug⟩
  · intro told
    obtain ⟨event, last, debug⟩ := told
    exact ⟨event, List.mem_append_right _ last, debug⟩

/-- The handles of the words follow those of the kinds. -/
theorem position_of_lt {count index : Nat} (room : count ≤ Reserved.capacity)
    (inside : index < count) : (Handle.ofPosition (40 + index)).position = 40 + index := by
  change count ≤ 65496 at room
  exact Handle.position_ofPosition (by omega)

section Ending

variable {report : Report (Registry Hook)} {words : List String}

/-- A build that ends at a fault recounts the words before it. -/
theorem Recounts.of_ended {index : Nat} {error : TableError} (ended : report.result = .error error)
    (least : IsLeast {index | faultAt? words index ≠ none} index)
    (fault : faultAt? words index = some error)
    (announces : Announces report.events.toList (words.take index) error.warnings.toList) :
    Recounts report words where
  built := by
    intro registry succeeded
    cases ended.symm.trans succeeded
  ended := by
    intro own failed
    cases ended.symm.trans failed
    exact ⟨index, least, fault, announces⟩
  finished := by
    rw [announces.exists_debug_iff, ended]
    constructor
    · intro told
      obtain ⟨event, member, debug⟩ := told
      cases (error.severity_of_mem_warnings event member).symm.trans debug
    · nofun

/-- A build that succeeds recounts all words and both sizes. -/
theorem Recounts.of_built {registry : Registry Hook} (built : report.result = .ok registry)
    (sound : ∀ index, faultAt? words index = none)
    (announces : Announces report.events.toList words
      [.finished (40 + words.length) words.length]) : Recounts report words where
  built := fun _ _ => ⟨sound, announces⟩
  ended := by
    intro error failed
    cases built.symm.trans failed
  finished := by
    rw [announces.exists_debug_iff, built]
    exact iff_of_true ⟨_, List.mem_singleton.mpr rfl, rfl⟩ ⟨registry, rfl⟩

end Ending

/-- The events of every build recount its tables. -/
theorem ofWords_recounts (words : List String) : Recounts (ofWords Hook words) words := by
  have outcome :=
    registerAll_announces [] (@new_represents Hook) (Catalog.newEvents Hook) words nofun
  rw [List.nil_append, newEvents_eq] at outcome
  simp only [List.length_nil, Nat.zero_add, Nat.add_zero] at outcome
  rcases outcome with ⟨index, error, least, fault, room, ended, told⟩ |
    ⟨sound, built, done, holds, told⟩
  · refine .of_ended ended least fault ⟨told, ?_⟩
    intro place inside
    exact position_of_lt room (Nat.lt_of_lt_of_le inside (List.length_take_le _ _))
  · have length := holds.length_le
    rw [List.length_map] at length
    rw [holds.size_eq, holds.size_keywords, List.length_map] at told
    refine .of_built done sound ⟨told, ?_⟩
    intro place inside
    exact position_of_lt length inside

end Registry

/-- The events of a build recount what it did with the words. In any run of calls on one catalog and the
indexes of its owners the events tell of every new entry in order, and a refusal tells of none. -/
theorem SharedCatalog.events_recount_tables {Owner : Type} [DecidableEq Owner] (words : List String)
    (shared : SharedCatalog Owner Hook) (calls : List (Owner × Call)) :
    Registry.Recounts (Registry.ofWords Hook words) words ∧
      shared.Transcribes (log (shared.callAll calls).2) (shared.callAll calls).1 ∧
      ∀ line ∈ (shared.callAll calls).2, ∀ error, line.2.result = .error error →
        ∀ event ∈ line.2.events.toList, event.Idle :=
  ⟨Registry.ofWords_recounts words, shared.callAll_transcribes calls, shared.idle_of_error calls⟩

end Lexicon
