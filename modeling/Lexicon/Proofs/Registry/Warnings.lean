import Lexicon.Proofs.Registry.Order

/-! A refused call gives one warning unless the spelling is bad or the catalog is full. -/

namespace Lexicon

variable {Hook : Type}

namespace Report

variable {Result : Type}

def warnings (report : Report Result) : List Event :=
  report.events.toList.filter (·.severity = .warning)

end Report

namespace TableError

/-- Nothing tells of these errors. -/
def Unreported (error : TableError) : Prop :=
  (∃ spelling, error = .invalidKeyword spelling) ∨ ∃ name, error = .tooManyTokens name

/-- An unreported error gives no warning. -/
theorem warnings_of_unreported {error : TableError} (unreported : error.Unreported) :
    error.warnings = #[] := by
  rcases unreported with ⟨spelling, rfl⟩ | ⟨name, rfl⟩ <;> rfl

/-- The events of an error are warnings. -/
theorem severity_of_mem_warnings (error : TableError) :
    ∀ event ∈ error.warnings.toList, event.severity = .warning := by
  cases error <;> simp [warnings, Event.severity]

end TableError

/-- The events of an accepted definition are traces. -/
theorem Definition.severity_of_mem_events (definition : Definition) (handle : Handle) :
    ∀ event ∈ (definition.events handle).toList, event.severity = .trace := by
  cases definition <;> simp [events, Event.severity]

namespace Registry

/-- A refusal is passed over in silence or comes with a single warning. -/
theorem warnings_of_refusal {registry : Registry Hook} {definition : Definition}
    {error : TableError}
    (refused : registry.refusal? definition = some error) :
    error.Unreported ∨ ∃ event, error.warnings = #[event] := by
  rw [refusal?, Option.or_eq_some_iff, Option.bind_eq_some_iff, Catalog.refusal?,
    Option.or_eq_some_iff] at refused
  rcases refused with ⟨spelling, _, misspelled⟩ | ⟨_, rejected | ⟨_, full⟩⟩
  · rw [KeywordIndex.refusal?] at misspelled
    split at misspelled
    · cases misspelled
      exact .inl (.inl ⟨spelling, rfl⟩)
    split at misspelled
    · cases misspelled
      exact .inr ⟨_, rfl⟩
    · cases misspelled
  · exact .inr ⟨_, Catalog.warnings_of_objection rejected⟩
  · split at full
    · cases full
      exact .inl (.inr ⟨_, rfl⟩)
    · cases full

/-- A call warns exactly once of an error that is reported, and otherwise it does not warn. An error
that is not reported leaves no event at all. -/
theorem call_warns_of_reported_error (registry : Registry Hook) (call : Call) :
    let report := (registry.call call).2
    (∀ handle, report.result = .ok handle → report.warnings.length = 0) ∧
    (∀ error, report.result = .error error → ¬error.Unreported → report.warnings.length = 1) ∧
    ∀ error, report.result = .error error → error.Unreported → report.events = #[] := by
  intro report
  refine ⟨?_, ?_, ?_⟩
  · intro handle succeeded
    obtain ⟨_, _, done⟩ := call_of_ok succeeded
    have severity := call.definition.severity_of_mem_events handle
    have events : report.events = call.definition.events handle := congrArg (·.2.events) done
    rw [Report.warnings, events, List.length_eq_zero_iff, List.filter_eq_nil_iff]
    intro event member
    rw [severity event member]
    decide
  · intro error failed reported
    obtain ⟨refused, done⟩ := call_of_error failed
    have severity := error.severity_of_mem_warnings
    have events : report.events = error.warnings := congrArg (·.2.events) done
    obtain ⟨event, single⟩ := (warnings_of_refusal refused).resolve_left reported
    rw [single, List.forall_mem_singleton] at severity
    simp [Report.warnings, events, single, severity]
  · intro error failed unreported
    obtain ⟨_, done⟩ := call_of_error failed
    have events : report.events = error.warnings := congrArg (·.2.events) done
    rw [events, TableError.warnings_of_unreported unreported]

/-- Two words are no spelling. The new registry refuses them and warns of nothing. -/
theorem register_two_words_without_warning :
    let report := ((new String).call (.register "two words" .plain)).2
    report.result = .error (.invalidKeyword "two words") ∧ report.warnings.length = 0 ∧
      ¬∀ registry : Registry String, registry.Reachable → ∀ call : Call,
        (∀ error, (registry.call call).2.result = .error error →
          (registry.call call).2.warnings.length = 1) ∧
        ∀ handle, (registry.call call).2.result = .ok handle →
          (registry.call call).2.warnings.length = 0 := by
  intro report
  have failed : report.result = .error (.invalidKeyword "two words") := by decide +kernel
  have silent : report.warnings.length = 0 := by decide +kernel
  refine ⟨failed, silent, ?_⟩
  intro warned
  have once := (warned (new String) .new (.register "two words" .plain)).1 _ failed
  cases silent.symm.trans once

/-- Each word is one letter longer than the word before. -/
def lengthening (count : Nat) : List String :=
  (List.range count).map fun length => String.ofList (List.replicate (length + 1) 'a')

theorem length_lengthening (count : Nat) : (lengthening count).length = count := by
  rw [lengthening, List.length_map, List.length_range]

/-- The words have no other letter than one. -/
theorem toList_of_mem_lengthening {count : Nat} {word : String}
    (member : word ∈ lengthening count) : ∃ length, word.toList = List.replicate (length + 1) 'a' := by
  obtain ⟨length, _, rfl⟩ := List.mem_map.mp member
  exact ⟨length, String.toList_ofList⟩

/-- Words of growing length are fit, as many as there is room for. -/
theorem fit_lengthening {count : Nat} (room : count ≤ Reserved.capacity) :
    Fit (lengthening count) where
  spelled := by
    intro word member
    obtain ⟨length, letters⟩ := toList_of_mem_lengthening member
    rw [Keyword.isSpelling_eq_true_iff, letters]
    constructor
    · rintro rfl
      cases letters
    · intro letter among
      rw [List.eq_of_mem_replicate among]
      decide
  distinct := by
    refine List.Nodup.map ?_ List.nodup_range
    intro first second same
    have lengths := congrArg (fun word => word.toList.length) same
    simpa using lengths
  room := (length_lengthening count).trans_le room

/-- A full catalog can be reached, and there a sound call is refused without an event. -/
theorem exists_full_without_event : ∃ registry : Registry Hook, registry.Reachable ∧
    registry.catalog.size = Catalog.capacity ∧
    (registry.call (.register "b" .plain)).2 = .silent (.tooManyTokens "_b") := by
  obtain ⟨registry, built⟩ :=
    (exists_ofWords_iff_fit (lengthening Reserved.capacity)).mpr (fit_lengthening (Nat.le_refl _))
  have represents := represents_of_ofWords built
  have objection : Reserved.objection? ((lengthening Reserved.capacity).map .ofGrammar)
      ⟨"b", .plain⟩ = some (.tooManyTokens "_b") := by
    have valid : ¬Keyword.isSpelling "b" = false := by decide
    have fresh : "b" ∉ lengthening Reserved.capacity := by
      intro member
      obtain ⟨length, letters⟩ := toList_of_mem_lengthening member
      cases letters
    have sound : Attributes.plain.fault? true true = none := by decide
    have full : ¬(lengthening Reserved.capacity).length < Reserved.capacity :=
      Nat.not_lt.mpr (length_lengthening _).ge
    rw [Reserved.objection?, spelling_ofGrammar, List.length_map, if_neg valid, if_neg fresh]
    simp only [sound, if_neg full]
    rfl
  obtain ⟨_, failed⟩ := represents.register_of_objection objection
  refine ⟨registry, .ofWords built, ?_, congrArg Prod.snd (register_of_error failed)⟩
  rw [represents.size_eq, List.length_map, length_lengthening]
  rfl

end Registry

end Lexicon
