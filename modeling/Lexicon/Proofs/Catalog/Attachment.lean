import Lexicon.Proofs.Catalog.Tracking
import Mathlib.Data.List.Induction

/-! The slot of a descriptor is written by the first attachment and never again. -/

namespace Lexicon

variable {Hook : Type}

/-- Several addresses can lead to one descriptor. -/
inductive Address where
  | handle (handle : Handle)
  | kind (kind : Kind)
  | name (name : String)
  | keyword (keywords : KeywordIndex) (spelling : String)

/-- A change defines a token type, registers a word through any index, or attaches a hook. -/
inductive Change (Hook : Type) where
  | defineToken (name label : String) (attributes : Attributes)
  | defineBinary (name label : String) (level : UInt8)
  | register (keywords : KeywordIndex) (spelling : String) (attributes : Attributes)
  | attach (address : Address) (hook : Hook)

def Change.attaches : Change Hook → Bool
  | .attach _ _ => true
  | _ => false

/-- An attempt to attach a hook stands with the handle that it reached and its result. -/
structure Attempt (Hook : Type) where
  handle : Handle
  hook : Hook
  result : Except TableError Unit

namespace Attempt

def succeeded (attempt : Attempt Hook) : Bool := attempt.result.isOk

@[simp] theorem succeeded_ok (handle : Handle) (hook : Hook) :
    succeeded ⟨handle, hook, .ok ()⟩ = true := rfl

@[simp] theorem succeeded_error (handle : Handle) (hook : Hook) (error : TableError) :
    succeeded ⟨handle, hook, .error error⟩ = false := rfl

/-- The hook of the first successful attempt on the handle. -/
def first? (attempts : List (Attempt Hook)) (handle : Handle) : Option Hook :=
  (attempts.find? fun attempt => attempt.handle = handle && attempt.succeeded).map hook

/-- A later attempt counts only when no earlier one succeeded. -/
theorem first?_concat (attempts : List (Attempt Hook)) (attempt : Attempt Hook) (handle : Handle) :
    first? (attempts ++ [attempt]) handle =
      (first? attempts handle).or
        (if attempt.handle = handle && attempt.succeeded then some attempt.hook else none) := by
  rw [first?, List.find?_append, Option.map_or, first?, List.find?_singleton]
  split <;> simp_all

/-- There is no first hook when every attempt on the handle failed. -/
theorem first?_eq_none_iff (attempts : List (Attempt Hook)) (handle : Handle) :
    first? attempts handle = none ↔
      ∀ attempt ∈ attempts, attempt.handle = handle → attempt.succeeded = false := by
  simp [first?]

end Attempt

namespace Descriptor

/-- A free slot takes the hook. -/
theorem attach_of_none {descriptor : Descriptor Hook} (free : descriptor.hook = none) (hook : Hook)
    :
    descriptor.attach hook = ({ descriptor with hook := some hook }, .ok ()) := by
  simp [attach, free]

/-- A taken slot keeps the hook that it holds. -/
theorem attach_of_some {descriptor : Descriptor Hook} {held : Hook}
    (taken : descriptor.hook = some held)
    (hook : Hook) :
    descriptor.attach hook = (descriptor, .error (.hookAttached descriptor.label)) := by
  simp [attach, taken]

end Descriptor

namespace Catalog

/-- The handle that an address stands for. -/
def locate? (catalog : Catalog Hook) : Address → Option Handle
  | .handle handle => some handle
  | .kind kind => some kind.handle
  | .name name => catalog.handle? name
  | .keyword keywords spelling => keywords.get? spelling

/-- The descriptor that an address leads to. -/
def reach? (catalog : Catalog Hook) (address : Address) : Option (Descriptor Hook) :=
  (catalog.locate? address).bind catalog.descriptor?

/-- An address reaches the descriptor of the handle that it leads to. -/
theorem reach?_eq_some_iff (catalog : Catalog Hook) (address : Address)
    (descriptor : Descriptor Hook) :
    catalog.reach? address = some descriptor ↔ ∃ handle, catalog.locate? address = some handle ∧
      catalog.descriptor? handle = some descriptor :=
  Option.bind_eq_some_iff

/-- A definition is refused or appended. -/
theorem fst_define (catalog : Catalog Hook) (name label : String) (keyword : Option String)
    (attributes : Attributes) :
    (catalog.define name label keyword attributes).1 = catalog ∨
      (catalog.define name label keyword attributes).1 =
        catalog.append name label keyword attributes := by
  rcases catalog.define_cases name label keyword attributes with
    ⟨error, events, refused⟩ | ⟨_, _, defined⟩
  · exact .inl (congrArg Prod.fst refused)
  · exact .inr (congrArg Prod.fst defined)

/-- The place behind the last descriptor is that of the new one, and its slot is empty. -/
theorem descriptor?_append (catalog : Catalog Hook) (name label : String) (keyword : Option String)
    (attributes : Attributes) (handle : Handle) :
    (catalog.append name label keyword attributes).descriptor? handle =
      if handle.position = catalog.size then
        some ⟨.ofPosition catalog.size, label, keyword, attributes, none⟩
      else catalog.descriptor? handle := by
  rw [descriptor?, append, Array.getElem?_push]
  rfl

/-- A descriptor of the longer catalog was there before, or it is the new one. -/
theorem descriptor?_append_cases {catalog : Catalog Hook} {name label : String}
    {keyword : Option String} {attributes : Attributes} {handle : Handle}
    {descriptor : Descriptor Hook}
    (stands : (catalog.append name label keyword attributes).descriptor? handle = some descriptor) :
    catalog.descriptor? handle = some descriptor ∨
      handle.position = catalog.size ∧
        descriptor = ⟨handle, label, keyword, attributes, none⟩ := by
  rw [descriptor?_append] at stands
  by_cases last : handle.position = catalog.size
  · rw [if_pos last, Option.some.injEq, ← last, Handle.ofPosition_position] at stands
    exact .inr ⟨last, stands.symm⟩
  · rw [if_neg last] at stands
    exact .inl stands

/-- A handle with a descriptor is within the catalog. -/
theorem position_lt_of_descriptor? {catalog : Catalog Hook} {handle : Handle}
    {descriptor : Descriptor Hook}
    (stands : catalog.descriptor? handle = some descriptor) : handle.position < catalog.size :=
  (Array.getElem?_eq_some_iff.mp stands).1

/-- An attachment adds no entry. -/
theorem size_attach (catalog : Catalog Hook) (handle : Handle) (hook : Hook) :
    (catalog.attach handle hook).1.size = catalog.size := by
  rw [size, descriptors_attach, Array.size_modify, size]

/-- Attaching changes the one descriptor of the handle. -/
theorem descriptor?_attach (catalog : Catalog Hook) (handle : Handle) (hook : Hook) (other : Handle)
    :
    (catalog.attach handle hook).1.descriptor? other =
      if handle = other then (catalog.descriptor? other).map fun descriptor =>
        (descriptor.attach hook).1
      else catalog.descriptor? other := by
  have same : handle.position = other.position ↔ handle = other := by
    constructor
    · intro places
      rw [← handle.ofPosition_position, places, other.ofPosition_position]
    · exact congrArg Handle.position
  simp only [descriptor?, descriptors_attach, Array.getElem?_modify, same]

/-- An empty slot takes the hook, and no other descriptor changes. -/
theorem descriptor?_attach_of_free {catalog : Catalog Hook} {handle : Handle}
    {descriptor : Descriptor Hook}
    (stands : catalog.descriptor? handle = some descriptor) (free : descriptor.hook = none)
    (hook : Hook) (other : Handle) :
    (catalog.attach handle hook).1.descriptor? other =
      if handle = other then some { descriptor with hook := some hook }
      else catalog.descriptor? other := by
  rw [descriptor?_attach]
  by_cases here : handle = other
  · rw [if_pos here, if_pos here, ← here, stands, Option.map_some, Descriptor.attach_of_none free]
  · rw [if_neg here, if_neg here]

/-- A full slot stays, and the catalog with it. -/
theorem attach_of_taken {catalog : Catalog Hook} {handle : Handle} {descriptor : Descriptor Hook}
    {held : Hook} (stands : catalog.descriptor? handle = some descriptor)
    (taken : descriptor.hook = some held) (hook : Hook) :
    catalog.attach handle hook =
      (catalog, some (.error (.hookAttached descriptor.label))) := by
  have within : handle.position < catalog.descriptors.size := position_lt_of_descriptor? stands
  have here : catalog.descriptors[handle.position] = descriptor :=
    (Array.getElem?_eq_some_iff.mp stands).2
  simp only [attach, stands, Descriptor.attach_of_some taken]
  rw [Array.setIfInBounds, dif_pos within, ← here, Array.set_getElem_self]

end Catalog

/-- A catalog stands with the attempts that reached a descriptor of it. -/
structure Attended (Hook : Type) where
  catalog : Catalog Hook
  attempts : List (Attempt Hook)

namespace Attended

def new (Hook : Type) : Attended Hook := ⟨.new Hook, []⟩

/-- An address without a descriptor leaves no attempt. -/
def change (attended : Attended Hook) : Change Hook → Attended Hook
  | .defineToken name label attributes =>
      ⟨(attended.catalog.defineToken name label attributes).1, attended.attempts⟩
  | .defineBinary name label level =>
      ⟨(attended.catalog.defineBinary name label level).1, attended.attempts⟩
  | .register keywords spelling attributes =>
      ⟨(Registry.register ⟨attended.catalog, keywords⟩ spelling attributes).1.catalog,
        attended.attempts⟩
  | .attach address hook =>
      match attended.catalog.locate? address with
      | none => attended
      | some handle =>
          let (next, result) := attended.catalog.attach handle hook
          ⟨next, attended.attempts ++ (result.map fun result => ⟨handle, hook, result⟩).toList⟩

def changeAll (attended : Attended Hook) (changes : List (Change Hook)) : Attended Hook :=
  changes.foldl change attended

/-- An attachment that reaches no descriptor changes nothing. -/
theorem change_unreached {attended : Attended Hook} {address : Address}
    (unreached : attended.catalog.reach? address = none) (hook : Hook) :
    attended.change (.attach address hook) = attended := by
  rw [change]
  cases located : attended.catalog.locate? address with
  | none => rfl
  | some handle =>
      rw [Catalog.reach?, located, Option.bind_some] at unreached
      simp [Catalog.attach, unreached]

/-- An attachment that reaches a descriptor is noted with its result. -/
theorem change_reached {attended : Attended Hook} {address : Address} {handle : Handle}
    {descriptor : Descriptor Hook} (located : attended.catalog.locate? address = some handle)
    (stands : attended.catalog.descriptor? handle = some descriptor) (hook : Hook) :
    attended.change (.attach address hook) =
      ⟨(attended.catalog.attach handle hook).1,
        attended.attempts ++ [⟨handle, hook, (descriptor.attach hook).2⟩]⟩ := by
  simp [change, located, Catalog.attach, stands]

/-- A definition that is not refused is appended and leaves the attempts as they were. -/
theorem change_definition (attended : Attended Hook) {change : Change Hook}
    (defines : change.attaches = false) :
    attended.change change = attended ∨ ∃ name label keyword attributes,
      attended.change change =
        ⟨attended.catalog.append name label keyword attributes, attended.attempts⟩ := by
  cases change with
  | defineToken name label attributes =>
      rcases attended.catalog.fst_define name label none attributes with refused | defined
      · exact .inl (congrArg (Attended.mk · attended.attempts) refused)
      · exact .inr ⟨_, _, _, _, congrArg (Attended.mk · attended.attempts) defined⟩
  | defineBinary name label level =>
      rcases attended.catalog.fst_define name label none (.binary level) with refused | defined
      · exact .inl (congrArg (Attended.mk · attended.attempts) refused)
      · exact .inr ⟨_, _, _, _, congrArg (Attended.mk · attended.attempts) defined⟩
  | register keywords spelling attributes =>
      rcases Registry.register_cases ⟨attended.catalog, keywords⟩ spelling attributes with
        ⟨error, events, refused⟩ | ⟨_, _, _, _, events, registered⟩
      · left
        rw [Attended.change, refused]
      · right
        refine ⟨Keyword.name spelling, spelling, some spelling, attributes, ?_⟩
        rw [Attended.change, registered]
  | attach address hook => cases defines

/-- A change does nothing, or it adds a descriptor, or it is an attempt on one. -/
theorem change_cases (attended : Attended Hook) (change : Change Hook) :
    attended.change change = attended ∨
    (∃ name label keyword attributes, attended.change change =
      ⟨attended.catalog.append name label keyword attributes, attended.attempts⟩) ∨
    ∃ handle descriptor hook, attended.catalog.descriptor? handle = some descriptor ∧
      attended.change change = ⟨(attended.catalog.attach handle hook).1,
        attended.attempts ++ [⟨handle, hook, (descriptor.attach hook).2⟩]⟩ := by
  cases kind : change.attaches with
  | false =>
      rcases attended.change_definition kind with same | appended
      · exact .inl same
      · exact .inr (.inl appended)
  | true =>
      cases change with
      | attach address hook =>
          cases reached : attended.catalog.reach? address with
          | none => exact .inl (change_unreached reached hook)
          | some descriptor =>
              obtain ⟨handle, located, stands⟩ :=
                (attended.catalog.reach?_eq_some_iff address descriptor).mp reached
              have tried := change_reached located stands hook
              exact .inr (.inr ⟨handle, descriptor, hook, stands, tried⟩)
      | defineToken | defineBinary | register => cases kind

/-- A slot holds the hook of the first successful attempt on its handle. -/
structure Kept (attended : Attended Hook) : Prop where
  placed : ∀ handle descriptor, attended.catalog.descriptor? handle = some descriptor →
    descriptor.handle = handle
  slot : ∀ handle descriptor, attended.catalog.descriptor? handle = some descriptor →
    descriptor.hook = Attempt.first? attended.attempts handle
  reached : ∀ attempt ∈ attended.attempts,
    attempt.handle.position < attended.catalog.size

/-- Before any change all slots are free and no attempt is noted. -/
theorem new_kept : (new Hook).Kept where
  placed := by
    have reachable : (Catalog.new Hook).Reachable := .new
    obtain ⟨definitions, holds⟩ := reachable.holds
    intro handle descriptor stands
    dsimp only [new] at stands
    exact holds.handle_of_descriptor? stands
  slot := by
    have represents : (Catalog.new Hook).Represents (Kind.all.map Kind.entry) :=
      Catalog.new_represents
    intro handle descriptor stands
    dsimp only [new] at stands ⊢
    rw [represents.descriptor?_eq, List.getElem?_map, Option.map_map,
      Option.map_eq_some_iff] at stands
    obtain ⟨kind, _, rfl⟩ := stands
    rfl
  reached := nofun

namespace Kept

variable {attended : Attended Hook}

/-- No attempt has reached the handle of a new descriptor. -/
theorem append (kept : attended.Kept) (name label : String) (keyword : Option String)
    (attributes : Attributes) :
    Kept ⟨attended.catalog.append name label keyword attributes, attended.attempts⟩ where
  placed := by
    intro handle descriptor stands
    rcases Catalog.descriptor?_append_cases stands with old | ⟨_, rfl⟩
    · exact kept.placed handle descriptor old
    · rfl
  slot := by
    intro handle descriptor stands
    rcases Catalog.descriptor?_append_cases stands with old | ⟨last, rfl⟩
    · exact kept.slot handle descriptor old
    · symm
      rw [Attempt.first?_eq_none_iff]
      rintro attempt member rfl
      have before := kept.reached attempt member
      omega
  reached := by
    intro attempt member
    rw [Catalog.size_append]
    exact Nat.lt_succ_of_lt (kept.reached attempt member)

/-- An attempt fills an empty slot and fails on a full one. -/
theorem attach (kept : attended.Kept) {handle : Handle} {descriptor : Descriptor Hook}
    (stands : attended.catalog.descriptor? handle = some descriptor) (hook : Hook) :
    Kept ⟨(attended.catalog.attach handle hook).1,
      attended.attempts ++ [⟨handle, hook, (descriptor.attach hook).2⟩]⟩ := by
  have reached : ∀ attempt ∈ attended.attempts ++ [⟨handle, hook, (descriptor.attach hook).2⟩],
      attempt.handle.position < (attended.catalog.attach handle hook).1.size := by
    intro attempt member
    rw [Catalog.size_attach]
    rcases List.mem_append.mp member with earlier | last
    · exact kept.reached attempt earlier
    · rw [List.mem_singleton.mp last]
      exact Catalog.position_lt_of_descriptor? stands
  have slot := kept.slot handle descriptor stands
  cases held : descriptor.hook with
  | some first =>
      rw [Catalog.attach_of_taken stands held] at reached ⊢
      rw [Descriptor.attach_of_some held] at reached ⊢
      refine ⟨kept.placed, ?_, reached⟩
      intro other found stood
      rw [Attempt.first?_concat, ← kept.slot other found stood]
      simp
  | none =>
      rw [Descriptor.attach_of_none held] at reached ⊢
      refine ⟨?_, ?_, reached⟩
      · intro other found stood
        rw [Catalog.descriptor?_attach_of_free stands held] at stood
        by_cases here : handle = other
        · rw [if_pos here, Option.some.injEq] at stood
          rw [← stood, ← here]
          exact kept.placed handle descriptor stands
        · rw [if_neg here] at stood
          exact kept.placed other found stood
      · intro other found stood
        rw [Catalog.descriptor?_attach_of_free stands held] at stood
        rw [Attempt.first?_concat]
        by_cases here : handle = other
        · rw [if_pos here, Option.some.injEq] at stood
          rw [← stood, ← here, ← slot, held]
          simp
        · rw [if_neg here] at stood
          rw [← kept.slot other found stood]
          simp [here]

/-- Every change keeps the slots in step with the attempts. -/
theorem change (kept : attended.Kept) (change : Change Hook) : (attended.change change).Kept := by
  rcases attended.change_cases change with
    same | ⟨name, label, keyword, attributes, appended⟩ | ⟨handle, descriptor, hook, stands, tried⟩
  · rw [same]
    exact kept
  · rw [appended]
    exact kept.append name label keyword attributes
  · rw [tried]
    exact kept.attach stands hook

end Kept

/-- The slots agree with the noted attempts after any changes. -/
theorem changeAll_kept (changes : List (Change Hook)) : ((new Hook).changeAll changes).Kept := by
  induction changes using List.reverseRecOn with
  | nil => exact new_kept
  | append_singleton changes change ih =>
      rw [changeAll, List.foldl_append]
      exact ih.change change

/-- A change keeps a descriptor but for an empty slot. -/
theorem change_descriptor? {attended : Attended Hook} {handle : Handle}
    {descriptor : Descriptor Hook}
    (stands : attended.catalog.descriptor? handle = some descriptor) (change : Change Hook) :
    ∃ slot, (attended.change change).catalog.descriptor? handle =
        some { descriptor with hook := slot } ∧
      ∀ hook, descriptor.hook = some hook → slot = some hook := by
  have unchanged : ∃ slot, some descriptor = some { descriptor with hook := slot } ∧
      ∀ hook, descriptor.hook = some hook → slot = some hook :=
    ⟨descriptor.hook, rfl, fun _ => id⟩
  rcases attended.change_cases change with
    same | ⟨name, label, keyword, attributes, appended⟩ | ⟨place, other, hook, _, tried⟩
  · rw [same, stands]
    exact unchanged
  · have before := Catalog.position_lt_of_descriptor? stands
    rw [appended, Catalog.descriptor?_append_of_lt before, stands]
    exact unchanged
  · rw [tried, Catalog.descriptor?_attach, stands]
    by_cases here : place = handle
    · rw [if_pos here, Option.map_some]
      cases held : descriptor.hook with
      | none =>
          rw [Descriptor.attach_of_none held]
          exact ⟨some hook, rfl, nofun⟩
      | some first =>
          rw [Descriptor.attach_of_some held, ← held]
          exact unchanged
    · rw [if_neg here]
      exact unchanged

/-- What is kept in each step is kept for ever. -/
theorem changeAll_descriptor? {attended : Attended Hook} {handle : Handle}
    {descriptor : Descriptor Hook}
    (stands : attended.catalog.descriptor? handle = some descriptor) (changes : List (Change Hook))
    :
    ∃ slot, (attended.changeAll changes).catalog.descriptor? handle =
        some { descriptor with hook := slot } ∧
      ∀ hook, descriptor.hook = some hook → slot = some hook := by
  induction changes generalizing attended descriptor with
  | nil => exact ⟨descriptor.hook, stands, fun _ => id⟩
  | cons change changes ih =>
      obtain ⟨middle, next, first⟩ := change_descriptor? stands change
      obtain ⟨slot, last, later⟩ := ih next
      refine ⟨slot, last, ?_⟩
      intro hook held
      exact later hook (first hook held)

/-- An attempt on the descriptor succeeds unless an earlier one on its handle did. Success fills
this one slot, and failure changes nothing. -/
structure Attaches (attended : Attended Hook) (address : Address) (hook : Hook)
    (descriptor : Descriptor Hook) (result : Except TableError Unit) : Prop where
  noted : (attended.change (.attach address hook)).attempts =
    attended.attempts ++ [⟨descriptor.handle, hook, result⟩]
  succeeds : result = .ok () ↔ ∀ earlier ∈ attended.attempts,
    earlier.handle = descriptor.handle → earlier.succeeded = false
  fills : result = .ok () →
    (attended.change (.attach address hook)).catalog.descriptor? descriptor.handle =
      some { descriptor with hook := some hook }
  fails : ∀ error, result = .error error → error = .hookAttached descriptor.label ∧
    (attended.change (.attach address hook)).catalog = attended.catalog
  others : ∀ other, other ≠ descriptor.handle →
    (attended.change (.attach address hook)).catalog.descriptor? other =
      attended.catalog.descriptor? other
  names : (attended.change (.attach address hook)).catalog.names = attended.catalog.names
  rightAssociative : (attended.change (.attach address hook)).catalog.rightAssociative =
    attended.catalog.rightAssociative

/-- Only the first successful attempt on a handle writes its slot. Definitions touch no slot and
come with an empty one. -/
structure WriteOnce (attended : Attended Hook) : Prop where
  slot : ∀ handle descriptor, attended.catalog.descriptor? handle = some descriptor →
    descriptor.hook = Attempt.first? attended.attempts handle
  attach : ∀ address hook descriptor, attended.catalog.reach? address = some descriptor →
    ∃ result, attended.Attaches address hook descriptor result
  unreached : ∀ address hook, attended.catalog.reach? address = none →
    attended.change (.attach address hook) = attended
  definition : ∀ change : Change Hook, change.attaches = false →
    (attended.change change).attempts = attended.attempts ∧
      ∀ handle descriptor, (attended.change change).catalog.descriptor? handle = some descriptor →
        attended.catalog.descriptor? handle = some descriptor ∨
          attended.catalog.descriptor? handle = none ∧ descriptor.hook = none
  forever : ∀ changes handle descriptor,
    attended.catalog.descriptor? handle = some descriptor →
      ∃ slot, (attended.changeAll changes).catalog.descriptor? handle =
          some { descriptor with hook := slot } ∧
        ∀ hook, descriptor.hook = some hook → slot = some hook

/-- What an attachment does to a descriptor follows from the attempts before it. -/
theorem Kept.attaches {attended : Attended Hook} (kept : attended.Kept) {address : Address}
    {descriptor : Descriptor Hook} (reached : attended.catalog.reach? address = some descriptor)
    (hook : Hook) :
    attended.Attaches address hook descriptor (descriptor.attach hook).2 := by
  obtain ⟨handle, located, stands⟩ :=
    (attended.catalog.reach?_eq_some_iff address descriptor).mp reached
  have own := kept.placed handle descriptor stands
  have slot := kept.slot handle descriptor stands
  have tried := change_reached located stands hook
  subst own
  constructor
  · rw [tried]
  · rw [← Attempt.first?_eq_none_iff, ← slot]
    cases held : descriptor.hook with
    | none => simp [Descriptor.attach_of_none held]
    | some first => simp [Descriptor.attach_of_some held]
  · intro succeeded
    cases held : descriptor.hook with
    | none => rw [tried, Catalog.descriptor?_attach_of_free stands held, if_pos rfl]
    | some first =>
        rw [Descriptor.attach_of_some held] at succeeded
        cases succeeded
  · intro error failed
    cases held : descriptor.hook with
    | none =>
        rw [Descriptor.attach_of_none held] at failed
        cases failed
    | some first =>
        rw [Descriptor.attach_of_some held] at failed
        cases failed
        rw [tried, Catalog.attach_of_taken stands held]
        exact ⟨rfl, rfl⟩
  · intro other elsewhere
    rw [tried, Catalog.descriptor?_attach, if_neg elsewhere.symm]
  · rw [tried, Catalog.names_attach]
  · rw [tried, Catalog.rightAssociative_attach]

/-- The descriptors after a definition are those before it and at most one with an empty slot. -/
theorem descriptor?_of_definition {attended : Attended Hook} {change : Change Hook}
    (defines : change.attaches = false) {handle : Handle} {descriptor : Descriptor Hook}
    (stands : (attended.change change).catalog.descriptor? handle = some descriptor) :
    attended.catalog.descriptor? handle = some descriptor ∨
      attended.catalog.descriptor? handle = none ∧ descriptor.hook = none := by
  rcases attended.change_definition defines with same | ⟨name, label, keyword, attributes, appended⟩
  · rw [same] at stands
    exact .inl stands
  · rw [appended] at stands
    rcases Catalog.descriptor?_append_cases stands with old | ⟨last, rfl⟩
    · exact .inl old
    · right
      constructor
      · exact Array.getElem?_eq_none (Nat.le_of_eq last.symm)
      · rfl

/-- In every run each slot is written once, whichever way its descriptor is reached. -/
theorem changeAll_writeOnce (changes : List (Change Hook)) :
    ((new Hook).changeAll changes).WriteOnce := by
  have kept := changeAll_kept changes
  constructor
  · exact kept.slot
  · intro address hook descriptor reached
    exact ⟨_, kept.attaches reached hook⟩
  · intro address hook unreached
    exact change_unreached unreached hook
  · intro change defines
    constructor
    · rcases Attended.change_definition _ defines with same | ⟨_, _, _, _, appended⟩
      · rw [same]
      · rw [appended]
    · intro handle descriptor stands
      exact descriptor?_of_definition defines stands
  · intro later handle descriptor stands
    exact changeAll_descriptor? stands later

/-- A handle and a keyword lead to one token type here. The two slots that are written refuse a later
hook, and the operator takes it. -/
theorem writeOnce_by_every_address :
    let keywords := KeywordIndex.empty.insert "of" (.ofPosition 41) rfl
    let last := (new String).changeAll [.defineBinary "pipe" "|>" 1, .register .empty "of" .plain,
      .attach (.kind .braceL) "blocks", .attach (.keyword keywords "of") "loops"]
    let addresses : List Address :=
      [.handle (.ofPosition 41), .kind .braceL, .name "pipe", .keyword keywords "of"]
    last.WriteOnce ∧
      (∀ address ∈ addresses, ∀ hook, ∃ descriptor result,
        last.catalog.reach? address = some descriptor ∧
          last.Attaches address hook descriptor result) ∧
      addresses.map (fun address =>
        (last.change (.attach address "late")).attempts.map Attempt.succeeded) =
          [[true, true, false], [true, true, false], [true, true, true], [true, true, false]] := by
  intro keywords last addresses
  have once : last.WriteOnce := changeAll_writeOnce _
  have held : ∀ address ∈ addresses, (last.catalog.reach? address).isSome = true := by
    decide +kernel
  refine ⟨once, ?_, by decide +kernel⟩
  intro address listed hook
  obtain ⟨descriptor, reached⟩ := Option.isSome_iff_exists.mp (held address listed)
  obtain ⟨result, attached⟩ := once.attach address hook descriptor reached
  exact ⟨descriptor, result, reached, attached⟩

end Attended

end Lexicon
