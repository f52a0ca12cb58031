import Lexicon.Proofs.Json.Streaming.Following

/-! The readers of variants and of records follow what is made of their values. -/

namespace Lexicon.Json.Streaming

section Choices

variable {Choice : Type} {enumeration : Enumeration Choice}

/-- A name is read as a text and then looked up. -/
theorem readName_eq (text : List Char) :
    readName enumeration text =
      (readText text).bind fun parts => namedVariant enumeration parts.1 parts.2 := by
  rw [readName]
  cases readText text <;> rfl

/-- A quoted name settles which variant is read. -/
theorem settles_readName (enumeration : Enumeration Choice) {text : List Char}
    (quoted : Quoted text) :
    ∃ inside, text = '"' :: inside ∧
      Settles (readName enumeration) inside (visitName enumeration text) := by
  obtain ⟨inside, rfl, settled⟩ := exists_quoted quoted
  refine ⟨inside, rfl, fun rest => ?_⟩
  rw [readName_eq, outcome_bind, settled rest, visitName]
  cases visitText (.text ('"' :: inside)) with
  | error category => rfl
  | ok name =>
      simp only [Except.map, Except.bind, namedVariant]
      cases enumeration.variant? rename name <;> rfl

/-- Nothing is written as null alone. -/
theorem readUnit_of_ne {c : Char} (seen : isBlank c = false) (other : c ≠ 'n')
    (rest : List Char) : readUnit (c :: rest) = .error (mismatch "unit" (c :: rest)) := by
  rw [readUnit, skipBlank_cons seen]
  split
  · rename_i same
    exact absurd (List.cons.inj same).1 other
  · rfl

/-- A unit is read as a value of no content. -/
def readNothing (text : List Char) : Read Unit := (readUnit text).map fun rest => ((), rest)

theorem passesBlanks_readUnit : PassesBlanks readUnit := by
  intro blank blanks rest
  rw [readUnit, readUnit, skipBlank_append blanks]

/-- Null is read as it is visited. -/
theorem follows_readNothing : Follows readNothing visitUnit where
  value := by
    intro tree text written rest ends
    have refused := category_mismatch_append written ends "unit"
    cases written with
    | null => rfl
    | text quoted =>
        cases quoted
        exact congrArg Except.error refused
    | number number =>
        obtain ⟨c, others, rfl, first⟩ := number.first_isDigit
        rw [List.cons_append, readNothing, readUnit_of_ne (opening_of_isDigit first).1
          (ne_of_isDigit first (by decide) rfl)]
        exact congrArg Except.error refused
    | _ => exact congrArg Except.error refused
  blank := by
    intro blank blanks rest
    rw [readNothing, readNothing, passesBlanks_readUnit blank blanks]

/-- What stands between the key of the object form and the bracket. -/
theorem outcome_closeObject {tree : Tree} {blank element tail : List Char} (blanks : Blank blank)
    (written : Writes (.element tree) element)
    (ended : tail = [] ∨ ∃ others, tail = ',' :: others) (rest : List Char) :
    outcome (closeObject (blank ++ ':' :: (element ++ (tail ++ '}' :: rest)))) =
      (visitUnit tree).bind fun _ => if tail.isEmpty then .ok rest else .error .grammar := by
  obtain ⟨after, trail, settled⟩ := follows_readNothing.element written
  have ends : Ended (tail ++ '}' :: rest) := by
    rcases ended with rfl | ⟨others, rfl⟩
    all_goals exact ended_cons (by decide) _
  rw [closeObject, readColon_append blanks]
  rcases exists_of_outcome (settled _ ends) with ⟨_, read, visited⟩ | ⟨failure, read, visited⟩
  · have unit : readUnit (element ++ (tail ++ '}' :: rest)) =
        .ok (after ++ (tail ++ '}' :: rest)) := by
      cases found : readUnit (element ++ (tail ++ '}' :: rest)) with
      | error failure =>
          rw [readNothing, found] at read
          cases read
      | ok last =>
          rw [readNothing, found] at read
          injection read with same
          exact congrArg _ (congrArg Prod.snd same)
    rw [visited]
    rcases ended with rfl | ⟨others, rfl⟩
    all_goals
      simp only [unit, skipBlank_append trail]
      rfl
  · have unit : readUnit (element ++ (tail ++ '}' :: rest)) = .error failure := by
      cases found : readUnit (element ++ (tail ++ '}' :: rest)) with
      | error other =>
          rw [readNothing, found] at read
          injection read with same
          exact congrArg _ same
      | ok last =>
          rw [readNothing, found] at read
          cases read
    rw [visited]
    simp only [unit]
    rfl

/-- Members begin with a key, an element and then a comma or nothing. -/
theorem exists_first_member {members : List (List Char × Tree)} {text : List Char}
    (written : Writes (.members members) text) :
    ∃ key tree others before after element tail, members = (key, tree) :: others ∧
      text = before ++ (key ++ (after ++ ':' :: (element ++ tail))) ∧ Blank before ∧ Quoted key ∧
      Blank after ∧ Writes (.element tree) element ∧ (tail = [] ∨ ∃ others, tail = ',' :: others) ∧
      tail.isEmpty = others.isEmpty := by
  cases written with
  | lastMember only =>
      cases only with
      | @member tree before key after element lead name trail value =>
          exact ⟨key, tree, [], before, after, element, [], rfl, by rw [List.append_nil], lead, name,
            trail, value, .inl rfl, rfl⟩
  | @moreMembers _ members _ others head rest =>
      cases head with
      | @member tree before key after element lead name trail value =>
          refine ⟨key, tree, members, before, after, element, ',' :: others, rfl, ?_, lead, name,
            trail, value, .inr ⟨others, rfl⟩, ?_⟩
          · simp only [List.append_assoc, List.cons_append]
          · cases rest <;> rfl

/-- The variant of an object is its key. -/
theorem readObject_of_key {text name : List Char} (start : skipBlank text = '"' :: name) :
    readObject enumeration text = (readName enumeration name).bind fun parts =>
      (closeObject parts.2).map fun last => (parts.1, last) := by
  simp only [readObject, start]
  cases readName enumeration name with
  | error failure => rfl
  | ok parts =>
      simp only [Except.bind]
      cases closeObject parts.2 <;> rfl

/-- An object of one member is read as it is visited. -/
theorem outcome_readObject {members : List (List Char × Tree)} {text : List Char}
    (written : Writes (.members members) text) (rest : List Char) :
    outcome (readObject enumeration (text ++ '}' :: rest)) =
      (visitChoice enumeration (.object members)).map fun variant => (variant, rest) := by
  obtain ⟨key, tree, others, before, after, element, tail, rfl, rfl, lead, name, trail, value,
    ended, alone⟩ := exists_first_member written
  obtain ⟨inside, rfl, settled⟩ := settles_readName enumeration name
  have start : skipBlank (before ++ ('"' :: inside ++ (after ++ ':' :: (element ++ tail))) ++
      '}' :: rest) = '"' :: (inside ++ (after ++ ':' :: (element ++ (tail ++ '}' :: rest)))) := by
    rw [List.append_assoc, skipBlank_append lead]
    simp only [List.append_assoc, List.cons_append]
    exact skipBlank_cons rfl _
  rw [readObject_of_key start, outcome_bind, settled, visitChoice, ← alone]
  cases visitName enumeration ('"' :: inside) with
  | error category => rfl
  | ok variant =>
      refine (outcome_map _ _).trans ?_
      rw [outcome_closeObject trail value ended rest]
      cases visitUnit tree with
      | error category => rfl
      | ok content => cases tail.isEmpty <;> rfl

/-- A variant is a text or an object. -/
theorem readVariant_of_ne {c : Char} (seen : isBlank c = false) (notText : c ≠ '"')
    (notObject : c ≠ '{') (rest : List Char) :
    readVariant enumeration (c :: rest) = .error (.next .valueExpected (c :: rest)) := by
  rw [readVariant, skipBlank_cons seen]
  split
  · rename_i same
    cases same
  · rename_i same
    exact absurd (List.cons.inj same).1 notText
  · rename_i same
    exact absurd (List.cons.inj same).1 notObject
  · rfl

theorem passesBlanks_readVariant (enumeration : Enumeration Choice) :
    PassesBlanks (readVariant enumeration) := by
  intro blank blanks rest
  rw [readVariant, readVariant, skipBlank_append blanks]

/-- A variant is read as it is visited. -/
theorem follows_readVariant (enumeration : Enumeration Choice) :
    Follows (readVariant enumeration) (visitChoice enumeration) where
  value := by
    intro tree text written rest ends
    cases written with
    | text quoted =>
        obtain ⟨inside, rfl, settled⟩ := settles_readName enumeration quoted
        exact settled rest
    | emptyObject blank =>
        have opened (text : List Char) :
            readVariant enumeration ('{' :: text) = readObject enumeration text := rfl
        rw [List.cons_append, List.append_assoc, opened, readObject, skipBlank_append blank]
        rfl
    | object written =>
        rw [List.cons_append, List.append_assoc]
        exact outcome_readObject written rest
    | number number =>
        obtain ⟨c, others, rfl, first⟩ := number.first_isDigit
        rw [List.cons_append, readVariant_of_ne (opening_of_isDigit first).1
          (ne_of_isDigit first (by decide) rfl) (ne_of_isDigit first (by decide) rfl)]
        rfl
    | _ => rfl
  blank := passesBlanks_readVariant enumeration

end Choices

section Members

variable {Record Field : Type} [DecidableEq Field] {Content : Field → Type}
  {declaration : Declaration Record Field Content}
  {contents : (field : Field) → Reader (Content field)}
  {visits : (field : Field) → Tree → Except Category (Content field)}

/-- A member starts with the quote of its key. -/
theorem nextMember_lead (first : Bool) {blank : List Char} (blanks : Blank blank)
    (rest : List Char) :
    nextMember first (lead first ++ (blank ++ '"' :: rest)) = .ok (true, rest) := by
  have quote : skipBlank (blank ++ '"' :: rest) = '"' :: rest := skipBlank_append blanks _
  have comma : skipBlank (',' :: (blank ++ '"' :: rest)) = ',' :: (blank ++ '"' :: rest) := rfl
  cases first <;> simp [lead, nextMember, openKey, quote, comma]

/-- White space before a member is passed. -/
theorem nextMember_append {blank : List Char} (blanks : Blank blank) (first : Bool)
    (rest : List Char) : nextMember first (blank ++ rest) = nextMember first rest := by
  rw [nextMember, nextMember, skipBlank_append blanks]

/-- What is left of an object before its bracket. -/
inductive MembersRemain (first : Bool) : List (List Char × Tree) → List Char → Prop where
  | done {blank : List Char} (blanks : Blank blank) : MembersRemain first [] blank
  | more {members : List (List Char × Tree)} {blank text : List Char} (blanks : Blank blank)
      (written : Writes (.members members) text) :
      MembersRemain first members (blank ++ (lead first ++ text))

/-- An object without further members ends at its brace. -/
theorem MembersRemain.nextMember_nil {first : Bool} {text : List Char}
    (remains : MembersRemain first [] text) (rest : List Char) :
    nextMember first (text ++ '}' :: rest) = .ok (false, rest) := by
  cases remains with
  | done blanks =>
      rw [nextMember_append blanks]
      rfl
  | more _ written => cases written

/-- What is read behind the key of a member. -/
def readNamed (declaration : Declaration Record Field Content)
    (contents : (field : Field) → Reader (Content field)) (draft : Draft Content) (key : String)
    (text : List Char) : Read (Draft Content) :=
  match declaration.field? rename key with
  | none => (readColon text).bind fun value =>
      (skipValue value).map fun rest => (draft, rest)
  | some field =>
      if (draft field).isSome then .error (.here (.duplicateField key) (afterObject text))
      else (readColon text).bind fun value =>
        ((contents field).optional.run value).map fun parts => (draft.set field parts.1, parts.2)

/-- A member is read as its key and then by the field of this name. -/
theorem readMember_eq (draft : Draft Content) (text : List Char) :
    readMember declaration contents draft text = (readText text).bind fun parts =>
      readNamed declaration contents draft parts.1 parts.2 := by
  rw [readMember]
  cases readText text with
  | error failure => rfl
  | ok parts =>
      simp only [Except.bind, readNamed]
      cases declaration.field? rename parts.1 with
      | none =>
          simp only
          cases readColon parts.2 with
          | error failure => rfl
          | ok value =>
              simp only
              cases skipValue value <;> rfl
      | some field =>
          simp only
          split
          · rfl
          · cases readColon parts.2 with
            | error failure => rfl
            | ok value =>
                simp only
                cases (contents field).optional.run value <;> rfl

/-- A member is read to the end of its value. -/
theorem outcome_readMember (follows : ∀ field, Follows (contents field).run (visits field))
    {inside after before value rest : List Char} {tree : Tree} (name : Quoted ('"' :: inside))
    (trail : Blank after) (lead : Blank before) (written : Writes (.value tree) value)
    (ends : Ended rest) (draft : Draft Content) :
    outcome (readMember declaration contents draft
        (inside ++ (after ++ ':' :: (before ++ (value ++ rest))))) =
      (takeMember declaration visits draft ('"' :: inside, tree)).map fun next => (next, rest) := by
  have settled := settles_readText name (after ++ ':' :: (before ++ (value ++ rest)))
  have colon := readColon_append trail (before ++ (value ++ rest))
  rw [readMember_eq, outcome_bind, settled, takeMember]
  cases visitText (.text ('"' :: inside)) with
  | error category => rfl
  | ok key =>
      simp only [Except.map, Except.bind, readNamed]
      cases declaration.field? rename key with
      | none =>
          simp only [colon, skipValue_append lead written ends]
          rfl
      | some field =>
          simp only
          split
          · rfl
          · have optional := (follows field).optional
            have taken : outcome ((contents field).optional.run (before ++ (value ++ rest))) =
                (visitOptional (visits field) tree).map fun content => (content, rest) :=
              (congrArg outcome (optional.blank _ lead _)).trans (optional.value written _ ends)
            simp only [colon]
            refine (outcome_map ((contents field).optional.run (before ++ (value ++ rest)))
              fun parts => (draft.set field parts.1, parts.2)).trans ?_
            rw [taken]
            cases visitOptional (visits field) tree <;> rfl

/-- The next member stands before the rest of the object. -/
theorem MembersRemain.exists_next {first : Bool} {key : List Char} {tree : Tree}
    {members : List (List Char × Tree)} {text : List Char}
    (remains : MembersRemain first ((key, tree) :: members) text) :
    ∃ inside after before value others, key = '"' :: inside ∧ Quoted key ∧ Blank after ∧
      Blank before ∧ Writes (.value tree) value ∧ MembersRemain false members others ∧ ∀ rest,
        nextMember first (text ++ '}' :: rest) =
          .ok (true, inside ++ (after ++ ':' :: (before ++ (value ++ (others ++ '}' :: rest))))) := by
  have next {blank lead inside : List Char} (blanks : Blank blank) (leads : Blank lead)
      (rest : List Char) :
      nextMember first (blank ++ (Streaming.lead first ++ (lead ++ '"' :: (inside ++ rest)))) =
        .ok (true, inside ++ rest) := by
    rw [nextMember_append blanks, nextMember_lead first leads]
  cases remains with
  | more blanks written =>
      cases written with
      | lastMember only =>
          cases only with
          | member lead name trail element =>
              cases name with
              | @quoted spelled marks =>
                  cases element with
                  | @element _ before value last leads written beyond =>
                      refine ⟨spelled ++ ['"'], _, before, value, last, rfl, .quoted marks, trail,
                        leads, written, .done beyond, fun rest => ?_⟩
                      simp only [List.append_assoc, List.cons_append]
                      exact next blanks lead _
      | @moreMembers _ _ text others only more =>
          cases only with
          | member lead name trail element =>
              cases name with
              | @quoted spelled marks =>
                  cases element with
                  | @element _ before value last leads written beyond =>
                      refine ⟨spelled ++ ['"'], _, before, value,
                        last ++ (Streaming.lead false ++ others), rfl, .quoted marks, trail,
                        leads, written, .more beyond more, fun rest => ?_⟩
                      simp only [List.append_assoc, List.cons_append]
                      exact next blanks lead _

/-- What is left behind a member does not carry a number on. -/
theorem MembersRemain.ended {members : List (List Char × Tree)} {text : List Char}
    (remains : MembersRemain false members text) (rest : List Char) :
    Ended (text ++ '}' :: rest) := by
  cases remains with
  | done blanks => exact (ended_cons (by decide) rest).append blanks
  | more blanks _ =>
      rw [List.append_assoc]
      exact (ended_cons (by decide) _).append blanks

/-- Members are read one after another until none is left. -/
theorem readMembers_eq (first : Bool) (draft : Draft Content) (text : List Char) :
    readMembers declaration contents first draft text = (nextMember first text).bind fun next =>
      if next.1 then (readMember declaration contents draft next.2).bind fun parts =>
        readMembers declaration contents false parts.1 parts.2
      else .ok (declaration.complete draft, next.2) := by
  rw [readMembers]
  split
  · rename_i failed
    rw [failed]
    rfl
  · rename_i closed
    rw [closed]
    rfl
  · rename_i more
    rw [more]
    split <;> simp_all [Except.bind]

/-- A further member is read before the others. -/
theorem readMembers_of_next {first : Bool} {text member : List Char}
    (next : nextMember first text = .ok (true, member)) (draft : Draft Content) :
    readMembers declaration contents first draft text =
      (readMember declaration contents draft member).bind fun parts =>
        readMembers declaration contents false parts.1 parts.2 := by
  rw [readMembers_eq, next]
  rfl

/-- The induction is on the members left, and what was taken so far is arbitrary. -/
theorem outcome_readMembers (follows : ∀ field, Follows (contents field).run (visits field))
    {members : List (List Char × Tree)} {first : Bool} {text : List Char}
    (remains : MembersRemain first members text) (draft : Draft Content) (rest : List Char) :
    outcome (readMembers declaration contents first draft (text ++ '}' :: rest)) =
      (members.foldlM (takeMember declaration visits) draft).map fun last =>
        (declaration.complete last, rest) := by
  induction members generalizing first text draft with
  | nil =>
      rw [readMembers_eq, remains.nextMember_nil]
      rfl
  | cons member members ih =>
      obtain ⟨key, tree⟩ := member
      obtain ⟨inside, after, before, value, others, rfl, name, trail, lead, written, later, found⟩ :=
        remains.exists_next
      rw [readMembers_of_next (found rest), outcome_bind,
        outcome_readMember follows name trail lead written (later.ended rest), List.foldlM_cons]
      cases takeMember declaration visits draft ('"' :: inside, tree) with
      | error category => rfl
      | ok taken => exact ih later taken

end Members

section Places

variable {Record Field : Type} [DecidableEq Field] {Content : Field → Type}
  {declaration : Declaration Record Field Content}
  {contents : (field : Field) → Reader (Content field)}
  {visits : (field : Field) → Tree → Except Category (Content field)}

/-- Anything but a bracket breaks the grammar at the end of a list. -/
theorem outcome_closeList_of_ne {text others : List Char} {c : Char}
    (start : skipBlank text = c :: others) (other : c ≠ ']') :
    outcome (closeList text) = .error .grammar := by
  rw [closeList, start]
  split
  · rename_i same
    cases same
  · rename_i same
    exact absurd (List.cons.inj same).1 other
  · split <;> rfl
  · rfl

/-- The bracket must follow when every field has its element. -/
theorem outcome_closeList {trees : List Tree} {first : Bool} {text : List Char}
    (remains : Remains first trees text) (rest : List Char) :
    outcome (closeList (text ++ ']' :: rest)) =
      if trees.isEmpty then .ok rest else .error .grammar := by
  cases remains with
  | done blanks =>
      rw [closeList, skipBlank_append blanks]
      rfl
  | @more _ blank text blanks written =>
      have nonempty : trees.isEmpty = false := by cases written <;> rfl
      obtain ⟨c, others, start, other⟩ : ∃ c others,
          skipBlank (blank ++ (lead first ++ text) ++ ']' :: rest) = c :: others ∧ c ≠ ']' := by
        rw [List.append_assoc, skipBlank_append blanks, List.append_assoc]
        cases first with
        | false => exact ⟨',', _, rfl, by decide⟩
        | true =>
            obtain ⟨c, others, start, opening⟩ := exists_start written (']' :: rest)
            exact ⟨c, others, start, opening.2.1⟩
      rw [outcome_closeList_of_ne start other, nonempty]
      rfl

/-- The induction is on the fields left, and what was taken so far is arbitrary. -/
theorem outcome_readPlaces (follows : ∀ field, Follows (contents field).run (visits field))
    (fields : List Field) {trees : List Tree} {count : Nat} {text : List Char}
    (remains : Remains (count = 0) trees text) (draft : Draft Content) (rest : List Char) :
    outcome ((readPlaces declaration contents draft count fields (text ++ ']' :: rest)).bind
        fun parts => (closeList parts.2).map fun last => (declaration.complete parts.1, last)) =
      ((fields.foldlM (takePlace visits) (draft, trees)).bind fun taken =>
        if taken.2.isEmpty then .ok (declaration.complete taken.1) else .error .grammar).map
          fun record => (record, rest) := by
  induction fields generalizing trees count text draft with
  | nil =>
      have closed := outcome_closeList remains rest
      refine (outcome_map _ _).trans ?_
      rw [closed]
      cases trees <;> rfl
  | cons field fields ih =>
      cases trees with
      | nil =>
          have wrong : readPlaces declaration contents draft count (field :: fields)
              (text ++ ']' :: rest) =
                .error (.here (.wrongLength count (listForm declaration)) rest) := by
            rw [readPlaces, remains.nextElement_nil]
          rw [wrong]
          rfl
      | cons tree trees =>
          obtain ⟨value, others, written, later, found⟩ := remains.exists_next
          have read := (follows field).optional.value written _ (later.ended rest)
          have further : (decide (count + 1 = 0)) = false := rfl
          have taking : takePlace visits (draft, tree :: trees) field =
              (visitOptional (visits field) tree).map fun content =>
                (draft.set field content, trees) := rfl
          rw [readPlaces, found rest, List.foldlM_cons, taking]
          rcases exists_of_outcome read with ⟨content, read, visited⟩ | ⟨failure, read, visited⟩
          · rw [visited]
            simp only [Reader.optional, read]
            exact ih (further ▸ later) (draft.set field content)
          · rw [visited]
            simp only [Reader.optional, read]
            rfl

end Places

section Records

variable {Record Field : Type} [DecidableEq Field] {Content : Field → Type}
  (declaration : Declaration Record Field Content)
  {contents : (field : Field) → Reader (Content field)}
  {visits : (field : Field) → Tree → Except Category (Content field)}

/-- A record is read from a list by its fields in their order. -/
theorem readPositions_eq (text : List Char) :
    readPositions declaration contents text =
      (readPlaces declaration contents Draft.empty 0 declaration.fields text).bind fun parts =>
        (closeList parts.2).map fun last => (declaration.complete parts.1, last) := by
  rw [readPositions]
  cases readPlaces declaration contents Draft.empty 0 declaration.fields text with
  | error failure => rfl
  | ok parts =>
      simp only [Except.bind]
      cases closeList parts.2 <;> rfl

/-- A record is an object or a list. -/
theorem readRecord_of_ne {c : Char} (seen : isBlank c = false) (notObject : c ≠ '{')
    (notList : c ≠ '[') (rest : List Char) :
    readRecord declaration contents (c :: rest) =
      .error (mismatch ("struct " ++ declaration.title) (c :: rest)) := by
  rw [readRecord, skipBlank_cons seen]
  split
  · rename_i same
    exact absurd (List.cons.inj same).1 notObject
  · rename_i same
    exact absurd (List.cons.inj same).1 notList
  · rfl

theorem passesBlanks_readRecord (contents : (field : Field) → Reader (Content field)) :
    PassesBlanks (readRecord declaration contents) := by
  intro blank blanks rest
  rw [readRecord, readRecord, skipBlank_append blanks]

/-- A record is read as it is visited, from an object or from a list. -/
theorem follows_readRecord (follows : ∀ field, Follows (contents field).run (visits field)) :
    Follows (readRecord declaration contents) (visitRecord declaration visits) where
  value := by
    intro tree text written rest ends
    have refused := category_mismatch_append written ends ("struct " ++ declaration.title)
    have object {members : List (List Char × Tree)} {text : List Char}
        (remains : MembersRemain true members text) :
        outcome (readRecord declaration contents ('{' :: (text ++ ['}']) ++ rest)) =
          (visitRecord declaration visits (.object members)).map fun record =>
            (record, rest) := by
      rw [List.cons_append, List.append_assoc]
      refine (outcome_readMembers follows remains Draft.empty rest).trans ?_
      rw [visitRecord]
      cases members.foldlM (takeMember declaration visits) Draft.empty <;> rfl
    have list {trees : List Tree} {text : List Char} (remains : Remains true trees text) :
        outcome (readRecord declaration contents ('[' :: (text ++ [']']) ++ rest)) =
          (visitRecord declaration visits (.list trees)).map fun record => (record, rest) := by
      have counted : Remains (decide (0 = 0)) trees text := remains
      have opened (text : List Char) : readRecord declaration contents ('[' :: text) =
          readPositions declaration contents text := rfl
      rw [List.cons_append, List.append_assoc, opened, readPositions_eq]
      exact outcome_readPlaces follows declaration.fields counted Draft.empty rest
    cases written with
    | emptyObject blank => exact object (.done blank)
    | object members => exact object (.more .nil members)
    | emptyList blank => exact list (.done blank)
    | list elements => exact list (.more .nil elements)
    | text quoted =>
        cases quoted
        exact congrArg Except.error refused
    | number number =>
        obtain ⟨c, others, rfl, first⟩ := number.first_isDigit
        rw [List.cons_append, readRecord_of_ne declaration (opening_of_isDigit first).1
          (ne_of_isDigit first (by decide) rfl) (ne_of_isDigit first (by decide) rfl)]
        exact congrArg Except.error refused
    | _ => exact congrArg Except.error refused
  blank := passesBlanks_readRecord declaration contents

end Records

/-- The induction is on the shape. -/
theorem follows_reader {Value : Type} (shape : Shape Value) :
    Follows (reader shape).run (visit shape) := by
  induction shape with
  | text => exact follows_readString
  | list item ih => exact ih.list
  | optional value ih => exact ih.optional
  | choice enumeration => exact follows_readVariant enumeration
  | record declaration contents ih => exact follows_readRecord declaration ih

end Lexicon.Json.Streaming
