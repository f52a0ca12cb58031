import Lexicon.Proofs.Json.Streaming.Taken

/-! A value that is cut off before its end is missed, unless it is wrong before that. -/

namespace Lexicon.Json.Streaming

variable {Value Other Item : Type}

/-- A beginning of a text is not the whole of it. -/
def Begins (part whole : List Char) : Prop := ∃ rest, rest ≠ [] ∧ part ++ rest = whole

section Beginnings

variable {part first second : List Char} {c : Char}

theorem not_begins_nil (part : List Char) : ¬Begins part [] := by
  intro begins
  obtain ⟨rest, more, same⟩ := begins
  exact more (List.append_eq_nil_iff.mp same).2

theorem begins_cons_iff :
    Begins part (c :: second) ↔ part = [] ∨ ∃ later, part = c :: later ∧ Begins later second := by
  constructor
  · intro begins
    obtain ⟨rest, more, same⟩ := begins
    cases part with
    | nil => exact .inl rfl
    | cons d later =>
        rw [List.cons_append] at same
        injection same with head tail
        subst head
        exact .inr ⟨later, rfl, rest, more, tail⟩
  · intro either
    rcases either with rfl | ⟨later, rfl, rest, more, rfl⟩
    · exact ⟨c :: second, List.cons_ne_nil c second, rfl⟩
    · exact ⟨rest, more, rfl⟩

/-- A beginning ends inside the first text, or after it inside the second. -/
theorem Begins.append (begins : Begins part (first ++ second)) :
    Begins part first ∨ ∃ later, part = first ++ later ∧ Begins later second := by
  induction first generalizing part with
  | nil => exact .inr ⟨part, rfl, begins⟩
  | cons c first ih =>
      rw [List.cons_append, begins_cons_iff] at begins
      rw [begins_cons_iff]
      rcases begins with rfl | ⟨later, rfl, inside⟩
      · exact .inl (.inl rfl)
      · rcases ih inside with early | ⟨last, rfl, late⟩
        · exact .inl (.inr ⟨later, rfl, early⟩)
        · exact .inr ⟨last, rfl, late⟩

/-- A prefix ends within the first part or goes on into the second. -/
theorem prefix_append_cases (starts : part <+: first ++ second) :
    Begins part first ∨ ∃ later, part = first ++ later ∧ later <+: second := by
  obtain ⟨rest, same⟩ := starts
  rcases List.append_eq_append_iff.mp same with ⟨more, whole, _⟩ | ⟨later, whole, inside⟩
  · cases more with
    | nil =>
        rw [List.append_nil] at whole
        exact .inr ⟨[], by rw [whole, List.append_nil], List.nil_prefix⟩
    | cons c more => exact .inl ⟨c :: more, List.cons_ne_nil c more, whole.symm⟩
  · exact .inr ⟨later, whole, ⟨rest, inside.symm⟩⟩

/-- The beginning of white space is white space. -/
theorem Begins.blank (begins : Begins part first) (blanks : Blank first) : Blank part := by
  obtain ⟨rest, _, rfl⟩ := begins
  exact fun c member => blanks c (List.mem_append_left rest member)

theorem Begins.prefix (begins : Begins part first) : part <+: first := by
  obtain ⟨rest, _, same⟩ := begins
  exact ⟨rest, same⟩

/-- The bracket is cut off at least. -/
theorem Begins.prefix_of_bracket (begins : Begins part (first ++ [c])) : part <+: first := by
  rcases begins.append with early | ⟨later, rfl, late⟩
  · exact early.prefix
  · rcases begins_cons_iff.mp late with rfl | ⟨last, _, beyond⟩
    · exact ⟨[], by rw [List.append_nil, List.append_nil]⟩
    · exact absurd beyond (not_begins_nil last)

/-- The beginning of what ends a number ends it too. -/
theorem Begins.ended (begins : Begins part first) (ends : Ended first) : Ended part := by
  obtain ⟨rest, _, rfl⟩ := begins
  intro d start
  cases part with
  | nil => cases start
  | cons e part => exact ends d start

end Beginnings

section Steadiness

variable {part whole others last : List Char}

/-- What misses the end never gets to its second reading. -/
theorem Missed.bind {result : Except Failure Value} (missed : Missed result)
    (next : Value → Except Failure Other) : Missed (result.bind next) := by
  rw [Missed, outcome_bind, missed]
  rfl

/-- The reading of a cut text against the verdict on the whole one. It misses the end, or the whole is
refused, or the cut is behind what is read, in the text that follows. -/
inductive Short (others : List Char) : Read Value → Except Category Value → Prop where
  | missed {result : Read Value} (missed : Missed result) (verdict : Except Category Value) :
      Short others result verdict
  | refused (result : Read Value) (category : Category) : Short others result (.error category)
  | begun {later : List Char} (value : Value) (begins : Begins later others) :
      Short others (.ok (value, later)) (.ok value)

/-- Two readings in turn fall short when each of them does. -/
theorem Short.bind {result : Read Value} {verdict : Except Category Value}
    (short : Short others result verdict) {next : Value × List Char → Read Other}
    {judge : Value → Except Category Other}
    (follows : ∀ value later, Begins later others → Short last (next (value, later)) (judge value)) :
    Short last (result.bind next) (verdict.bind judge) := by
  cases short with
  | missed missed verdict => exact .missed (missed.bind next) _
  | refused result category => exact .refused _ category
  | begun value begins => exact follows value _ begins

/-- Changing a value does not change where the reading stops. -/
theorem Short.map {result : Read Value} {verdict : Except Category Value}
    (short : Short others result verdict) (change : Value → Other) :
    Short others (result.map fun parts => (change parts.1, parts.2)) (verdict.map change) := by
  cases short with
  | missed missed verdict =>
      refine .missed ?_ _
      rw [Missed, outcome_map, missed]
      rfl
  | refused result category => exact .refused _ category
  | begun value begins => exact .begun _ begins

/-- A steady reader of a cut text misses the end, or takes what it takes of the whole text. -/
theorem Steady.short {read : List Char → Read Value} (steady : Steady behind read) {value : Value}
    (begins : Begins part whole) (done : read whole = .ok (value, others)) :
    Short others (read part) (.ok value) := by
  obtain ⟨rest, more, rfl⟩ := begins
  rcases (done ▸ steady part rest).missed_or_taken with missed | ⟨before, taken, same⟩
  · exact .missed missed _
  · obtain ⟨content, later⟩ := before
    have content : content = value := (congrArg Prod.fst same).symm
    subst content
    rw [taken]
    exact .begun _ ⟨rest, more, (congrArg Prod.snd same).symm⟩

/-- A steady reader misses the end of a beginning, or it leaves a beginning of the rest. -/
theorem Steady.missed_or_begun {read : List Char → Except Failure (List Char)}
    (steady : Steady after read) (begins : Begins part whole) (done : read whole = .ok others) :
    Missed (read part) ∨ ∃ later, read part = .ok later ∧ Begins later others := by
  obtain ⟨rest, more, rfl⟩ := begins
  rcases (done ▸ steady part rest).missed_or_taken with missed | ⟨later, taken, same⟩
  · exact .inl missed
  · exact .inr ⟨later, taken, rest, more, same.symm⟩

/-- Nothing is left to begin. -/
theorem Steady.missed_of_after {read : List Char → Except Failure (List Char)}
    (steady : Steady after read) (begins : Begins part whole) (done : read whole = .ok []) :
    Missed (read part) := by
  rcases steady.missed_or_begun begins done with missed | ⟨later, _, beyond⟩
  · exact missed
  · exact absurd beyond (not_begins_nil later)

/-- A steady reader that settles a text falls short on its beginnings. -/
theorem Settles.short {read : List Char → Read Value} {verdict : Except Category Value}
    (settles : Settles read whole verdict) (steady : Steady behind read)
    (begins : Begins part (whole ++ others)) : Short others (read part) verdict := by
  rcases exists_of_outcome (settles others) with ⟨value, done, rfl⟩ | ⟨failure, _, rfl⟩
  · exact steady.short begins done
  · exact .refused _ _

end Steadiness

section Skipping

open Due

variable {part text : List Char}

/-- Skipping misses the end when its step does. -/
theorem missed_skip_of_step {due : Due} (missed : Missed (due.step part)) :
    Missed (due.skip part) := by
  rw [skip_eq]
  exact missed.bind _

/-- In white space alone there is nothing to skip. -/
theorem missed_skip_blank (due : Due) (blanks : Blank part) : Missed (due.skip part) := by
  have same := skip_append blanks due []
  rw [List.append_nil] at same
  rw [same]
  apply missed_skip_of_step
  cases due with
  | separator inner outer => cases inner <;> rfl
  | _ => rfl

/-- Before a phrase there is nothing to skip, so only what is behind its first character counts. -/
theorem missed_skip_of_begins_cons {due : Due} {c : Char} {others : List Char}
    (begins : Begins part (c :: others))
    (inside : ∀ later, Begins later others → Missed (due.skip (c :: later))) :
    Missed (due.skip part) := by
  rcases begins_cons_iff.mp begins with rfl | ⟨later, rfl, behind⟩
  · exact missed_skip_blank due .nil
  · exact inside later behind

/-- A cut text misses the end. -/
theorem missed_skipText (marks : Marks text) (begins : Begins part (text ++ ['"'])) :
    Missed (skipText part) :=
  steady_skipText.missed_of_after begins (skipText_marks marks [])

/-- An opening bracket and blanks alone say nothing of what is inside. -/
theorem missed_skip_list_blank (blanks : Blank part) (enclosing : List Enclosing) :
    Missed ((Due.value enclosing).skip ('[' :: part)) := by
  apply missed_skip_of_step
  rw [step, skipBlank_cons rfl, stepValue, (skipBlank_eq_nil_iff part).mpr blanks]
  rfl

/-- An object that is only opened misses the end. -/
theorem missed_skip_object_blank (blanks : Blank part) (enclosing : List Enclosing) :
    Missed ((Due.value enclosing).skip ('{' :: part)) := by
  apply missed_skip_of_step
  rw [step, skipBlank_cons rfl, stepValue, (skipBlank_eq_nil_iff part).mpr blanks]
  rfl

/-- In white space alone there is no colon. -/
theorem missed_readColon_blank (blanks : Blank part) : Missed (readColon part) := by
  rw [readColon, (skipBlank_eq_nil_iff part).mpr blanks]
  rfl

/-- A key is missed before its quote, within its text and before its colon. -/
theorem missed_skip_key {key after : List Char} (name : Quoted key) (trail : Blank after)
    (starts : part <+: key ++ after) (outer : List Enclosing) : Missed ((Due.key outer).skip part) := by
  cases name with
  | @quoted text marks =>
      have step (rest : List Char) : (Due.key outer).step ('"' :: rest) =
          (skipText rest).bind fun unread => (readColon unread).bind fun rest =>
            .ok (some (.value (.object :: outer)), rest) := by
        rw [Due.step, skipBlank_cons rfl, stepKey_quote]
      rw [List.cons_append, List.prefix_cons_iff] at starts
      rcases starts with rfl | ⟨later, rfl, within⟩
      · exact missed_skip_blank _ .nil
      apply missed_skip_of_step
      rw [step]
      rcases prefix_append_cases within with early | ⟨last, rfl, behind⟩
      · exact (missed_skipText marks early).bind _
      · have blanks : Blank last := fun c member => trail c (behind.subset member)
        rw [List.append_assoc, List.singleton_append, skipText_marks marks]
        exact (missed_readColon_blank blanks).bind _

/-- What is due where a phrase is to be read is missed when the phrase is cut off. What follows a phrase
that is no value is missed when nothing follows. -/
def MissesPart : Phrase → List Char → Prop
  | .value tree, text => tree.Numberless → ∀ enclosing part, Begins part text →
      Missed ((Due.value enclosing).skip part)
  | .element tree, text => tree.Numberless → ∀ inner outer part, part <+: text →
      Missed ((Due.value (inner :: outer)).skip part)
  | .elements trees, text => (∀ tree ∈ trees, tree.Numberless) → ∀ outer part, part <+: text →
      Missed ((Due.value (.list :: outer)).skip part)
  | .member member, text => member.2.Numberless → ∀ outer part, part <+: text →
      Missed ((Due.key outer).skip part)
  | .members members, text => (∀ member ∈ members, member.2.Numberless) → ∀ outer part,
      part <+: text → Missed ((Due.key outer).skip part)

/-- Only blanks are left of the inside of a list or an object, or it has started. -/
theorem blank_or_exists_start {phrase : Phrase} (written : Writes phrase text)
    (starts : part <+: text) :
    Blank part ∨ ∃ c others, skipBlank part = c :: others ∧ Opening c := by
  cases start : skipBlank part with
  | nil => exact .inl ((skipBlank_eq_nil_iff part).mp start)
  | cons c others =>
      obtain ⟨rest, rfl⟩ := starts
      obtain ⟨d, behind, found, opening⟩ := exists_start written []
      rw [List.append_nil, skipBlank_append_of_cons start] at found
      exact .inr ⟨c, others, rfl, (List.cons.inj found).1 ▸ opening⟩

/-- What is opened is missed with nothing, with blanks alone behind its bracket, or in its inside. -/
theorem missed_skip_opened {phrase : Phrase} (written : Writes phrase text) {due : Due}
    {opened closed : Char} (begins : Begins part (opened :: (text ++ [closed])))
    (blank : ∀ later, Blank later → Missed (due.skip (opened :: later)))
    (inside : ∀ later c others, later <+: text → skipBlank later = c :: others → Opening c →
      Missed (due.skip (opened :: later))) : Missed (due.skip part) := by
  apply missed_skip_of_begins_cons begins
  intro later behind
  have starts := behind.prefix_of_bracket
  rcases blank_or_exists_start written starts with blanks | ⟨c, others, start, opening⟩
  · exact blank later blanks
  · exact inside later c others starts start opening

theorem MissesPart.list {trees : List Tree} (elements : Writes (.elements trees) text)
    (misses : MissesPart (.elements trees) text) :
    MissesPart (.value (.list trees)) ('[' :: (text ++ [']'])) := by
  intro numberless enclosing part begins
  cases numberless with
  | list numberless =>
      apply missed_skip_opened elements begins
      · exact fun later blanks => missed_skip_list_blank blanks enclosing
      · intro later c others starts start opening
        rw [skip_list start opening]
        exact misses numberless enclosing later starts

theorem MissesPart.object {trees : List (List Char × Tree)} (members : Writes (.members trees) text)
    (misses : MissesPart (.members trees) text) :
    MissesPart (.value (.object trees)) ('{' :: (text ++ ['}'])) := by
  intro numberless enclosing part begins
  cases numberless with
  | object numberless =>
      apply missed_skip_opened members begins
      · exact fun later blanks => missed_skip_object_blank blanks enclosing
      · intro later c others starts start opening
        rw [skip_object start opening]
        exact misses numberless enclosing later starts

/-- An element is missed in the blanks before its value, in the value, and with nothing behind it. -/
theorem MissesPart.element {tree : Tree} {before after : List Char} (lead : Blank before)
    (written : Writes (.value tree) text) (trail : Blank after)
    (misses : MissesPart (.value tree) text) :
    MissesPart (.element tree) (before ++ (text ++ after)) := by
  intro numberless inner outer part starts
  rcases prefix_append_cases starts with early | ⟨later, rfl, within⟩
  · exact missed_skip_blank _ (early.blank lead)
  rw [skip_append lead]
  rcases prefix_append_cases within with early | ⟨last, rfl, behind⟩
  · exact misses numberless _ later early
  have blanks : Blank last := fun c member => trail c (behind.subset member)
  rw [skips_of_writes written (inner :: outer) last blanks.ended]
  exact missed_skip_blank _ blanks

/-- A sequence is missed in its first item, before the comma and behind it. -/
theorem missed_skip_comma {due next : Due} {others : List Char}
    (first : ∀ part, part <+: text → Missed (due.skip part))
    (turns : ∀ rest, due.skip (text ++ ',' :: rest) = next.skip rest)
    (rest : ∀ part, part <+: others → Missed (next.skip part))
    (starts : part <+: text ++ ',' :: others) : Missed (due.skip part) := by
  rcases prefix_append_cases starts with early | ⟨later, rfl, within⟩
  · exact first part early.prefix
  rcases List.prefix_cons_iff.mp within with rfl | ⟨last, rfl, behind⟩
  · rw [List.append_nil]
    exact first text List.prefix_rfl
  · rw [turns]
    exact rest last behind

theorem MissesPart.moreElements {tree : Tree} {trees : List Tree} {others : List Char}
    (element : Writes (.element tree) text) (first : MissesPart (.element tree) text)
    (rest : MissesPart (.elements trees) others) :
    MissesPart (.elements (tree :: trees)) (text ++ ',' :: others) := by
  intro numberless outer part starts
  obtain ⟨head, tail⟩ := List.forall_mem_cons.mp numberless
  apply missed_skip_comma (first head .list outer) _ (rest tail outer) starts
  intro unread
  rw [skips_of_writes element .list outer _ (ended_cons (by decide) _), skip_of_step rfl, skipIfDue]

/-- A member is missed before its key, in it, before the colon, and in the value behind that. -/
theorem MissesPart.member {tree : Tree} {before key after : List Char} (lead : Blank before)
    (name : Quoted key) (trail : Blank after) (misses : MissesPart (.element tree) text) :
    MissesPart (.member (key, tree)) (before ++ (key ++ (after ++ ':' :: text))) := by
  intro numberless outer part starts
  rcases prefix_append_cases starts with early | ⟨later, rfl, within⟩
  · exact missed_skip_blank _ (early.blank lead)
  rw [skip_append lead]
  rw [← List.append_assoc] at within
  rcases prefix_append_cases within with early | ⟨last, rfl, behind⟩
  · exact missed_skip_key name trail early.prefix outer
  rcases List.prefix_cons_iff.mp behind with rfl | ⟨value, rfl, inside⟩
  · rw [List.append_nil]
    exact missed_skip_key name trail List.prefix_rfl outer
  · have named : (Due.key outer).skip (key ++ (after ++ ':' :: value)) =
        (Due.value (.object :: outer)).skip value := skip_key .nil name trail
    rw [List.append_assoc, named]
    exact misses numberless .object outer value inside

theorem MissesPart.moreMembers {member : List Char × Tree} {members : List (List Char × Tree)}
    {others : List Char} (written : Writes (.member member) text)
    (first : MissesPart (.member member) text) (rest : MissesPart (.members members) others) :
    MissesPart (.members (member :: members)) (text ++ ',' :: others) := by
  intro numberless outer part starts
  obtain ⟨head, tail⟩ := List.forall_mem_cons.mp numberless
  apply missed_skip_comma (first head outer) _ (rest tail outer) starts
  intro unread
  rw [skips_of_writes written outer _ (ended_cons (by decide) _), skip_of_step rfl, skipIfDue]

end Skipping

end Lexicon.Json.Streaming
