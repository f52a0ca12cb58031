import Mathlib.Data.List.Nodup
import Mathlib.Data.List.Perm.Basic
import Lexicon.Proofs.Json.Laws

/-! What a record takes of the members of an object and of the elements of a list. -/

namespace Lexicon.Json

variable {Record Field : Type} [DecidableEq Field] {Content : Field → Type}

/-- A known member may hold null, and every other member is of no interest. -/
inductive Member (Content : Field → Type) where
  | known (field : Field) (content : Option (Content field))
  | unknown (name : String)

namespace Member

def field? : Member Content → Option Field
  | known field _ => some field
  | unknown _ => none

def isKnown (member : Member Content) : Bool := member.field?.isSome

/-- The fields of the known members in order, with repetitions. -/
def fields (members : List (Member Content)) : List Field := members.filterMap field?

variable {members others : List (Member Content)} {field : Field}

omit [DecidableEq Field] in
/-- Every listed field has a member. -/
theorem exists_known_of_mem_fields (listed : field ∈ fields members) :
    ∃ content, .known field content ∈ members := by
  obtain ⟨member, named, same⟩ := List.mem_filterMap.mp listed
  cases member with
  | known other content =>
      cases same
      exact ⟨content, named⟩
  | unknown => cases same

omit [DecidableEq Field] in
/-- The members that are skipped name no field. -/
theorem fields_filter (members : List (Member Content)) :
    fields (members.filter isKnown) = fields members := by
  induction members with
  | nil => rfl
  | cons member members ih =>
      cases member with
      | known field content => exact congrArg (field :: ·) ih
      | unknown name => exact ih

omit [DecidableEq Field] in
/-- Moving members moves the fields that they name. -/
theorem fields_perm (same : (others.filter isKnown).Perm (members.filter isKnown)) :
    (fields others).Perm (fields members) := by
  rw [← fields_filter others, ← fields_filter members]
  exact same.filterMap field?

end Member

namespace Draft

variable {draft : Draft Content} {member : Member Content} {members others : List (Member Content)}
  {field : Field} {content : Option (Content field)}

/-- A known member sets its field. -/
def take (draft : Draft Content) : Member Content → Draft Content
  | .known field content => draft.set field content
  | .unknown _ => draft

/-- No field that was taken stands again. -/
def Fresh (draft : Draft Content) (member : Member Content) : Prop :=
  ∀ field ∈ member.field?, draft field = none

/-- No known member repeats another or a field that was taken. -/
def FreshAll (draft : Draft Content) (members : List (Member Content)) : Prop :=
  (Member.fields members).Nodup ∧ ∀ field ∈ Member.fields members, draft field = none

/-- Members are fresh one after another. -/
theorem freshAll_cons :
    draft.FreshAll (member :: members) ↔ draft.Fresh member ∧ (draft.take member).FreshAll members := by
  cases member with
  | unknown name =>
      have fresh : draft.Fresh (.unknown name) := by
        intro field named
        cases named
      exact (and_iff_right fresh).symm
  | known field content =>
      have fresh : draft.Fresh (.known field content) ↔ draft field = none :=
        ⟨fun fresh => fresh field rfl, fun free other same => by cases same; exact free⟩
      have listed : Member.fields (.known field content :: members) =
          field :: Member.fields members := rfl
      rw [fresh, FreshAll, FreshAll, listed, List.nodup_cons, List.forall_mem_cons]
      constructor
      · rintro ⟨⟨absent, once⟩, free, others⟩
        refine ⟨free, once, fun other named => ?_⟩
        have differs : field ≠ other := fun same => absent (same ▸ named)
        exact (draft.set_of_ne differs content).trans (others other named)
      · rintro ⟨free, once, others⟩
        have absent : field ∉ Member.fields members := fun named =>
          Option.some_ne_none _ ((draft.set_self field content).symm.trans (others field named))
        refine ⟨⟨absent, once⟩, free, fun other named => ?_⟩
        have differs : field ≠ other := fun same => absent (same ▸ named)
        exact (draft.set_of_ne differs content).symm.trans (others other named)

omit [DecidableEq Field] in
/-- All members are fresh when no field is named twice. -/
theorem freshAll_empty (members : List (Member Content)) :
    (empty : Draft Content).FreshAll members ↔ (Member.fields members).Nodup :=
  and_iff_left fun _ _ => rfl

/-- A field that no member names keeps its content. -/
theorem foldl_take_of_not_mem (draft : Draft Content) (absent : field ∉ Member.fields members) :
    members.foldl take draft field = draft field := by
  induction members generalizing draft with
  | nil => rfl
  | cons member members ih =>
      cases member with
      | known other content =>
          obtain ⟨differs, later⟩ := not_or.mp (List.mem_cons.not.mp absent)
          exact (ih _ later).trans (draft.set_of_ne (Ne.symm differs) content)
      | unknown name => exact ih draft absent

/-- A field that one member names takes the content of this member. -/
theorem foldl_take_of_mem (draft : Draft Content) (once : (Member.fields members).Nodup)
    (named : .known field content ∈ members) : members.foldl take draft field = some content := by
  induction members generalizing draft with
  | nil => cases named
  | cons member members ih =>
      rcases List.mem_cons.mp named with rfl | later
      · exact (foldl_take_of_not_mem _ (List.nodup_cons.mp once).1).trans
          (draft.set_self field content)
      · apply ih _ _ later
        cases member with
        | known => exact (List.nodup_cons.mp once).2
        | unknown => exact once

/-- The order of the members and the unknown ones make no difference. -/
theorem foldl_take_perm (once : (Member.fields members).Nodup)
    (same : (others.filter Member.isKnown).Perm (members.filter Member.isKnown)) :
    others.foldl take (empty : Draft Content) = members.foldl take empty := by
  have listed := Member.fields_perm same
  have onceToo : (Member.fields others).Nodup := listed.nodup_iff.mpr once
  funext field
  by_cases named : field ∈ Member.fields members
  · obtain ⟨content, member⟩ := Member.exists_known_of_mem_fields named
    have kept : .known field content ∈ members.filter Member.isKnown :=
      List.mem_filter.mpr ⟨member, rfl⟩
    have other := (List.mem_filter.mp (same.mem_iff.mpr kept)).1
    rw [foldl_take_of_mem _ once member, foldl_take_of_mem _ onceToo other]
  · rw [foldl_take_of_not_mem _ named,
      foldl_take_of_not_mem _ (listed.mem_iff.not.mpr named)]

end Draft

namespace Library

variable {library : Library} {declaration : Declaration Record Field Content}
  {contents : (field : Field) → Shape (Content field)}

section Objects

variable {member : Member Content} {members : List (Member Content)}
  {raw : List Char × Tree} {raws : List (List Char × Tree)} {draft : Draft Content}

/-- The member of an object is known with its content, or it is unknown. -/
inductive Stands (library : Library) (declaration : Declaration Record Field Content)
    (contents : (field : Field) → Shape (Content field)) :
    Member Content → List Char × Tree → Prop where
  | known {name : String} {key : List Char} {tree : Tree} {field : Field}
      {content : Option (Content field)} (quotes : Quotes name key)
      (found : declaration.field? library.rename name = some field)
      (visited : library.visit (.optional (contents field)) tree = .ok content) :
      Stands library declaration contents (.known field content) (key, tree)
  | unknown {name : String} {key : List Char} {tree : Tree} (quotes : Quotes name key)
      (found : declaration.field? library.rename name = none) :
      Stands library declaration contents (.unknown name) (key, tree)

/-- A fresh member is taken into the draft. -/
theorem takeMember_of_fresh (visits : library.VisitsMembers declaration contents)
    (stands : library.Stands declaration contents member raw) (fresh : draft.Fresh member) :
    library.takeMember declaration contents draft raw = .ok (draft.take member) := by
  cases stands with
  | @known _ key tree field content quotes found visited =>
      rw [visits.fresh draft quotes found (fresh field rfl), visited]
      rfl
  | unknown quotes found => exact visits.unknown draft quotes found _

/-- A repeated field is wrong data. -/
theorem takeMember_of_not_fresh (visits : library.VisitsMembers declaration contents)
    (stands : library.Stands declaration contents member raw) (repeated : ¬draft.Fresh member) :
    library.takeMember declaration contents draft raw = .error .data := by
  cases stands with
  | @known _ key tree field content quotes found visited =>
      apply visits.repeated draft quotes found
      intro free
      apply repeated
      intro other same
      cases same
      exact free
  | unknown =>
      apply absurd _ repeated
      intro field named
      cases named

/-- The induction is on the members left. Those before the first repeated field are taken. -/
theorem foldlM_takeMember (visits : library.VisitsMembers declaration contents)
    (stand : List.Forall₂ (library.Stands declaration contents) members raws)
    (draft : Draft Content) :
    (draft.FreshAll members → raws.foldlM (library.takeMember declaration contents) draft =
      .ok (members.foldl Draft.take draft)) ∧
    (¬draft.FreshAll members → raws.foldlM (library.takeMember declaration contents) draft =
      .error .data) := by
  induction stand generalizing draft with
  | nil => exact ⟨fun _ => rfl, fun repeated => absurd ⟨List.nodup_nil, nofun⟩ repeated⟩
  | @cons member raw members raws stands _ ih =>
      rw [Draft.freshAll_cons, List.foldlM_cons, List.foldl_cons]
      by_cases fresh : draft.Fresh member
      · rw [takeMember_of_fresh visits stands fresh, and_iff_right fresh]
        exact ih (draft.take member)
      · rw [takeMember_of_not_fresh visits stands fresh]
        exact ⟨fun both => absurd both.1 fresh, fun _ => rfl⟩

/-- An object gives what its known members give, unless one of them repeats another. -/
theorem visit_object (visits : library.VisitsMembers declaration contents)
    (stand : List.Forall₂ (library.Stands declaration contents) members raws) :
    ((Member.fields members).Nodup → library.visit (.record declaration contents) (.object raws) =
      .ok (declaration.complete (members.foldl Draft.take Draft.empty))) ∧
    (¬(Member.fields members).Nodup →
      library.visit (.record declaration contents) (.object raws) = .error .data) := by
  obtain ⟨taken, refused⟩ := foldlM_takeMember visits stand Draft.empty
  rw [Draft.freshAll_empty] at taken refused
  rw [visits.object]
  constructor
  · intro once
    rw [taken once]
    rfl
  · intro repeated
    rw [refused repeated]
    rfl

end Objects

section Places

variable {fields : List Field} {draft : Draft Content}

/-- A field takes the value of its own. -/
def takeValue (library : Library) (contents : (field : Field) → Shape (Content field))
    (values : Field → Tree) (draft : Draft Content) (field : Field) :
    Except Category (Draft Content) :=
  (library.visit (.optional (contents field)) (values field)).map (draft.set field)

/-- One element for each field is taken, and the others are left. -/
theorem foldlM_takePlace (visits : library.VisitsPlaces declaration contents)
    (values : Field → Tree) (fields : List Field) (draft : Draft Content) (others : List Tree) :
    fields.foldlM (library.takePlace declaration contents) (draft, fields.map values ++ others) =
      (fields.foldlM (library.takeValue contents values) draft).map fun last => (last, others) := by
  induction fields generalizing draft with
  | nil => rfl
  | cons field fields ih =>
      rw [List.map_cons, List.cons_append, List.foldlM_cons, List.foldlM_cons, visits.next,
        takeValue]
      cases library.visit (.optional (contents field)) (values field) with
      | error category => rfl
      | ok content => exact ih (draft.set field content)

/-- With too few elements the places are not filled, whatever the elements are. -/
theorem foldlM_takePlace_of_short (visits : library.VisitsPlaces declaration contents)
    {elements : List Tree} (short : elements.length < fields.length) (draft : Draft Content) :
    ∃ category, fields.foldlM (library.takePlace declaration contents) (draft, elements) =
      .error category := by
  induction fields generalizing elements draft with
  | nil => exact absurd short (Nat.not_lt_zero _)
  | cons field fields ih =>
      rw [List.foldlM_cons]
      cases elements with
      | nil =>
          rw [visits.missing]
          exact ⟨.data, rfl⟩
      | cons element elements =>
          rw [visits.next]
          cases library.visit (.optional (contents field)) element with
          | error category => exact ⟨category, rfl⟩
          | ok content => exact ih (Nat.lt_of_succ_lt_succ short) (draft.set field content)

/-- Members with new names are taken as the values of their fields, well typed or not. -/
theorem foldlM_takeMember_map (visits : library.VisitsMembers declaration contents)
    {keys : Field → List Char} {values : Field → Tree} (once : fields.Nodup)
    (found : ∀ field ∈ fields, ∃ name, Quotes name (keys field) ∧
      declaration.field? library.rename name = some field)
    (free : ∀ field ∈ fields, draft field = none) :
    (fields.map fun field => (keys field, values field)).foldlM
        (library.takeMember declaration contents) draft =
      fields.foldlM (library.takeValue contents values) draft := by
  induction fields generalizing draft with
  | nil => rfl
  | cons field fields ih =>
      obtain ⟨absent, onceToo⟩ := List.nodup_cons.mp once
      obtain ⟨⟨name, quotes, named⟩, foundToo⟩ := List.forall_mem_cons.mp found
      obtain ⟨unset, freeToo⟩ := List.forall_mem_cons.mp free
      rw [List.map_cons, List.foldlM_cons, List.foldlM_cons, visits.fresh draft quotes named unset,
        takeValue]
      cases library.visit (.optional (contents field)) (values field) with
      | error category => rfl
      | ok content =>
          apply ih onceToo foundToo
          intro other listed
          have differs : field ≠ other := fun same => absent (same ▸ listed)
          exact (draft.set_of_ne differs content).trans (freeToo other listed)

/-- A list of the values of all fields gives what an object with these values gives. -/
theorem visit_list_eq_visit_object (members : library.VisitsMembers declaration contents)
    (places : library.VisitsPlaces declaration contents) {keys : Field → List Char}
    (values : Field → Tree) (once : declaration.fields.Nodup)
    (found : ∀ field ∈ declaration.fields, ∃ name, Quotes name (keys field) ∧
      declaration.field? library.rename name = some field) :
    library.visit (.record declaration contents) (.list (declaration.fields.map values)) =
      library.visit (.record declaration contents)
        (.object (declaration.fields.map fun field => (keys field, values field))) := by
  have free : ∀ field ∈ declaration.fields, (Draft.empty : Draft Content) field = none :=
    fun _ _ => rfl
  have taken := foldlM_takePlace places values declaration.fields Draft.empty []
  rw [List.append_nil] at taken
  rw [places.list, members.object, taken, foldlM_takeMember_map members once found free]
  cases declaration.fields.foldlM (library.takeValue contents values) Draft.empty <;> rfl

end Places

end Library

end Lexicon.Json
