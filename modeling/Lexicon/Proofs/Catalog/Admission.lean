import Lexicon.Proofs.Catalog.Alignment
import Lexicon.Proofs.Catalog.Rules

/-! A definition that keeps all rules adds one entry to a catalog, and any other leaves no trace. -/

namespace Lexicon

variable {Hook : Type}

namespace Catalog

/-- The new token type has the next handle and is no keyword. Every lookup of before is as it was. -/
structure Defined (before : Catalog Hook) (name label : String) (attributes : Attributes)
    (handle : Handle) (after : Catalog Hook) : Prop where
  position : handle.position = before.size
  size : after.size = before.size + 1
  entries : after.entries = before.entries ++ [(name, ⟨handle, label, none, attributes, none⟩)]
  rightAssociative : after.rightAssociative = before.rightAssociative
  inserted : (before.names.tryInsert name handle).1 = .ok before.size
  found : after.handle? name = some handle
  names : ∀ other, other ≠ name → after.handle? other = before.handle? other
  descriptors : ∀ other, other ≠ handle → after.descriptor? other = before.descriptor? other

/-- The names take a fresh name at the place of the new descriptor. -/
theorem Represents.tryInsert_eq_ok {catalog : Catalog Hook} {entries : List (Entry Hook)}
    (represents : catalog.Represents entries) {name : String}
    (fresh : catalog.names.contains name = false) (handle : Handle) :
    (catalog.names.tryInsert name handle).1 = .ok catalog.size := by
  rw [(OrderedMap.tryInsert_of_not_contains fresh handle).1, represents.size_names]

/-- Before the last place a longer list is the shorter one, and behind it both hold nothing. -/
theorem getElem?_concat_of_ne {entries : List (Entry Hook)} {position : Nat}
    (different : position ≠ entries.length) (entry : Entry Hook) :
    (entries ++ [entry])[position]? = entries[position]? := by
  rcases Nat.lt_or_gt_of_ne different with inside | beyond
  · exact List.getElem?_append_left inside
  · rw [List.getElem?_eq_none (Nat.le_of_lt beyond), List.getElem?_eq_none]
    rw [List.length_append]
    exact beyond

/-- A definition without objection stands behind the others, and these are as before. -/
theorem Numbered.defined {catalog : Catalog Hook} (numbered : catalog.Numbered) {name : String}
    {attributes : Attributes} (accepted : catalog.objection? name none attributes = none)
    (room : catalog.size < capacity) (label : String) :
    catalog.Defined name label attributes (.ofPosition catalog.size)
      (catalog.append name label none attributes) := by
  have next := numbered.append accepted room label
  have right := next.rightAssociative.trans numbered.rightAssociative.symm
  have fresh := (objection?_eq_none_iff.mp accepted).1
  have place := Handle.position_ofPosition room
  obtain ⟨entries, represents⟩ := numbered.represents
  have appended := represents.append_of_accepted accepted room label
  refine ⟨place, size_append _ _ _ _ _, ?_, right, represents.tryInsert_eq_ok fresh _, ?_, ?_, ?_⟩
  · rw [appended.entries_eq, represents.entries_eq]
  · rw [appended.handle?_eq_some_iff, place, represents.size_eq, List.getElem?_concat_length]
    rfl
  · intro other different
    apply Option.ext
    intro handle
    rw [appended.handle?_eq_some_iff, represents.handle?_eq_some_iff]
    by_cases last : handle.position = entries.length
    · -- The last place is free before, and after it holds the new name alone.
      rw [last, List.getElem?_concat_length, List.getElem?_eq_none (Nat.le_refl _)]
      simp [different.symm]
    · rw [getElem?_concat_of_ne last]
  · intro other different
    have elsewhere : other.position ≠ entries.length := by
      intro last
      rw [← represents.size_eq] at last
      exact different (by rw [← last, Handle.ofPosition_position])
    rw [appended.descriptor?_eq, represents.descriptor?_eq, getElem?_concat_of_ne elsewhere]

/-- A definition succeeds exactly when every rule is kept, and then its entry is the last one. Otherwise
its error is that of the first broken rule, and the catalog is as before. -/
theorem Tracked.defineToken_all_or_nothing {catalog : Catalog Hook} (tracked : catalog.Tracked)
    (name label : String) (attributes : Attributes) :
    let after := (catalog.defineToken name label attributes).1
    let result := (catalog.defineToken name label attributes).2.result
    ((∃ handle, result = .ok handle) ↔ ∀ rule ∈ catalog.rules name false attributes, rule.kept) ∧
    (∀ handle, result = .ok handle → catalog.Defined name label attributes handle after) ∧
    (∀ error, result = .error error ↔
      FirstBroken error (catalog.rules name false attributes)) ∧
    ∀ error, result = .error error → after = catalog := by
  intro after result
  have numbered := tracked.numbered
  have judged : Judged (catalog.rules name false attributes)
      (catalog.defineToken name label attributes).2.error? :=
    numbered.define_judged name label none attributes
  refine ⟨?_, ?_, ?_, ?_⟩
  · rw [← judged.accepts, Report.error?_eq_none_iff]
  · intro handle succeeded
    rcases catalog.define_cases name label none attributes with
      ⟨error, events, refused⟩ | ⟨accepted, room, defined⟩
    · have failed : result = .error error := congrArg (fun outcome => outcome.2.result) refused
      cases failed.symm.trans succeeded
    · have next : after = catalog.append name label none attributes := congrArg Prod.fst defined
      have given : result = .ok (.ofPosition catalog.size) :=
        congrArg (fun outcome => outcome.2.result) defined
      cases given.symm.trans succeeded
      rw [next]
      exact numbered.defined accepted room label
  · intro error
    rw [← judged.refuses, Report.error?_eq_some_iff]
  · intro error failed
    rcases catalog.define_cases name label none attributes with
      ⟨_, events, refused⟩ | ⟨_, _, defined⟩
    · exact congrArg Prod.fst refused
    · have given : result = .ok (.ofPosition catalog.size) :=
        congrArg (fun outcome => outcome.2.result) defined
      cases given.symm.trans failed

/-- A level of 255 and the unnamed bit are taken beside a hook. A second operator of the same name is
refused for its name before its level zero, and one of another name for its associativity. -/
theorem defineToken_beside_hook :
    let catalog := ((new String).attach Kind.exponent.handle "power").1
    let taken := (catalog.defineToken "pipe" "|>" ⟨⟨129⟩, some 255⟩).1
    catalog.Tracked ∧
      catalog.Defined "pipe" "|>" ⟨⟨129⟩, some 255⟩ (.ofPosition 40) taken ∧
      (taken.defineToken "pipe" "|" ⟨⟨4⟩, some 0⟩).2.result = .error (.duplicateName "pipe") ∧
      (taken.defineToken "pipe" "|" ⟨⟨4⟩, some 0⟩).1 = taken ∧
      (taken.defineToken "power" "^^" ⟨⟨5⟩, some 12⟩).2.result =
        .error (.inconsistentFlags "power" .secondRight) ∧
      (taken.defineToken "power" "^^" ⟨⟨5⟩, some 12⟩).1 = taken := by
  intro catalog taken
  have tracked : catalog.Tracked := .attach .new _ _
  have accepted : (catalog.defineToken "pipe" "|>" ⟨⟨129⟩, some 255⟩).2.result =
      .ok (.ofPosition 40) := by decide +kernel
  have repeated : (taken.defineToken "pipe" "|" ⟨⟨4⟩, some 0⟩).2.result =
      .error (.duplicateName "pipe") := by decide +kernel
  have second : (taken.defineToken "power" "^^" ⟨⟨5⟩, some 12⟩).2.result =
      .error (.inconsistentFlags "power" .secondRight) := by decide +kernel
  obtain ⟨_, defined, _, _⟩ := tracked.defineToken_all_or_nothing "pipe" "|>" ⟨⟨129⟩, some 255⟩
  have next : taken.Tracked := .defineToken tracked _ _ _
  obtain ⟨_, _, _, unchanged⟩ := next.defineToken_all_or_nothing "pipe" "|" ⟨⟨4⟩, some 0⟩
  obtain ⟨_, _, _, kept⟩ := next.defineToken_all_or_nothing "power" "^^" ⟨⟨5⟩, some 12⟩
  exact ⟨tracked, defined _ accepted, repeated, unchanged _ repeated, second, kept _ second⟩

end Catalog

end Lexicon
