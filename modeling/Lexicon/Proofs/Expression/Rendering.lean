import Lexicon.Proofs.Expression.Grouping
import Lexicon.Proofs.Expression.Sorting

/-! The text of a grouping can be read in one way only. -/

namespace Lexicon

variable {Hook : Type}

namespace Text

def isParenthesis (c : Char) : Bool := c == '(' || c == ')'

def withoutParentheses (text : String) : String :=
  String.ofList (text.toList.filter fun c => !isParenthesis c)

/-- No word of the source holds a parenthesis. -/
def Unparenthesised (source : String) : Prop :=
  ∀ word ∈ words source, ∀ c ∈ word.toList, isParenthesis c = false

-- The search goes over the words alone, and never over all characters that there are.
instance (source : String) : Decidable (Unparenthesised source) :=
  decidable_of_iff ((words source).all fun word => word.toList.all (!isParenthesis ·))
    (by simp [Unparenthesised])

/-- No plain word holds one of these characters. -/
def separates (c : Char) : Bool := isWhiteSpace c || isParenthesis c

/-- A plain word has characters, and none of them is white space or a parenthesis. -/
def IsPlain (word : String) : Prop := word ≠ "" ∧ ∀ c ∈ word.toList, separates c = false

/-- A word before the text cannot go on in it. -/
def Parts (rest : List Char) : Prop := ∀ c, rest.head? = some c → separates c = true

theorem parts_nil : Parts [] := nofun

/-- A separator at the start parts the text from the word before it. -/
theorem parts_cons {c : Char} (separator : separates c = true) (rest : List Char) :
    Parts (c :: rest) := by
  intro first head
  cases head
  exact separator

/-- A word in front of such a text is what stands before the first separator. -/
theorem IsPlain.takeWhile_append {word : String} (plain : IsPlain word) {rest : List Char}
    (parts : Parts rest) :
    (word.toList ++ rest).takeWhile (fun c => !separates c) = word.toList := by
  have stopped : rest.takeWhile (fun c => !separates c) = [] := by
    cases rest with
    | nil => rfl
    | cons c rest => rw [List.takeWhile_cons_of_neg (by simp [parts c rfl])]
  rw [List.takeWhile_append_of_pos (by simpa using plain.2), stopped, List.append_nil]

/-- A text has one word at its start, and one rest after it. -/
theorem IsPlain.append_inj {word other : String} (plain : IsPlain word) (again : IsPlain other)
    {rest others : List Char} (parts : Parts rest) (partsToo : Parts others)
    (same : word.toList ++ rest = other.toList ++ others) : word = other ∧ rest = others := by
  have letters := plain.takeWhile_append parts
  rw [same, again.takeWhile_append partsToo, String.toList_inj] at letters
  rw [letters] at same
  exact ⟨letters.symm, List.append_cancel_left same⟩

/-- A word has a first character, which is no separator. -/
theorem IsPlain.exists_cons {word : String} (plain : IsPlain word) :
    ∃ c rest, word.toList = c :: rest ∧ separates c = false := by
  have nonempty : word.toList ≠ [] := by
    rw [ne_eq, String.toList_eq_nil_iff]
    exact plain.1
  obtain ⟨c, rest, letters⟩ := List.exists_cons_of_ne_nil nonempty
  exact ⟨c, rest, letters, plain.2 c (letters ▸ List.mem_cons_self)⟩

/-- No plain word begins with a parenthesis. -/
theorem IsPlain.append_ne_cons {word : String} (plain : IsPlain word) (rest others : List Char) :
    word.toList ++ rest ≠ '(' :: others := by
  obtain ⟨c, letters, start, inside⟩ := plain.exists_cons
  intro same
  rw [start, List.cons_append, List.cons.injEq] at same
  rw [same.1] at inside
  cases inside

/-- A word has no parentheses to lose. -/
theorem IsPlain.filter_eq_self {word : String} (plain : IsPlain word) :
    (word.toList.filter fun c => !isParenthesis c) = word.toList := by
  rw [List.filter_eq_self]
  intro c inside
  have neither := plain.2 c inside
  rw [separates, Bool.or_eq_false_iff] at neither
  rw [neither.2, Bool.not_false]

/-- The words of a source without parentheses are plain. -/
theorem Unparenthesised.isPlain {source word : String} (plain : Unparenthesised source)
    (member : word ∈ words source) : IsPlain word := by
  obtain ⟨nonempty, solid⟩ := isWord_of_mem_words member
  refine ⟨nonempty, fun c inside => ?_⟩
  rw [separates, solid c inside, plain word member c inside]
  rfl

end Text

namespace Tree

/-- Both trees have one shape, with the same texts at the same places. -/
inductive Matches : Tree → Tree → Prop where
  | leaf (text : String) : Matches (.leaf text) (.leaf text)
  | node {left right otherLeft otherRight : Tree} (left_matches : Matches left otherLeft)
      (right_matches : Matches right otherRight) (handle otherHandle : Handle) (operator : String) :
      Matches (.node left handle operator right) (.node otherLeft otherHandle operator otherRight)

/-- The texts of the operands and operators stand from left to right. -/
def texts (tree : Tree) : List String := tree.items.map Item.text

/-- Every operand and every operator is a plain word. -/
def Plain (tree : Tree) : Prop := ∀ text ∈ tree.texts, Text.IsPlain text

@[simp] theorem texts_leaf (text : String) : (leaf text).texts = [text] := rfl

@[simp] theorem texts_node (left : Tree) (handle : Handle) (operator : String) (right : Tree) :
    (node left handle operator right).texts = left.texts ++ operator :: right.texts := by
  simp [texts, items, Item.text]

/-- Every tree has a word. -/
theorem texts_ne_nil (tree : Tree) : tree.texts ≠ [] := by
  simp [texts, tree.items_ne_nil]

theorem plain_node_iff {left right : Tree} {handle : Handle} {operator : String} :
    (node left handle operator right).Plain ↔
      left.Plain ∧ Text.IsPlain operator ∧ right.Plain := by
  simp only [Plain, texts_node, List.forall_mem_append, List.forall_mem_cons]

theorem plain_leaf_iff {text : String} : (leaf text).Plain ↔ Text.IsPlain text :=
  List.forall_mem_singleton

/-- Trees that match have the same words. -/
theorem Matches.texts_eq {left right : Tree} (alike : left.Matches right) :
    left.texts = right.texts := by
  induction alike with
  | leaf text => rfl
  | node _ _ _ _ _ ihLeft ihRight => rw [texts_node, texts_node, ihLeft, ihRight]

theorem toList_render_node (left : Tree) (handle : Handle) (operator : String) (right : Tree) :
    (node left handle operator right).render.toList =
      '(' :: (left.render.toList ++
        ' ' :: (operator.toList ++ ' ' :: (right.render.toList ++ [')']))) := by
  simp [render]

/-- The text of a tree ends where it does, whatever follows, and the tree can be read off it. -/
theorem matches_of_render_append {left right : Tree} (plain : left.Plain) (again : right.Plain)
    {rest others : List Char} (parts : Text.Parts rest) (partsToo : Text.Parts others)
    (same : left.render.toList ++ rest = right.render.toList ++ others) :
    left.Matches right ∧ rest = others := by
  induction left generalizing right rest others with
  | leaf text =>
      rw [plain_leaf_iff] at plain
      cases right with
      | leaf other =>
          rw [plain_leaf_iff] at again
          obtain ⟨rfl, left⟩ := plain.append_inj again parts partsToo same
          exact ⟨.leaf text, left⟩
      | node =>
          rw [toList_render_node] at same
          cases plain.append_ne_cons _ _ same
  | node left handle operator right ihLeft ihRight =>
      rw [plain_node_iff] at plain
      obtain ⟨plainLeft, plainOperator, plainRight⟩ := plain
      cases right with
      | leaf other =>
          rw [plain_leaf_iff] at again
          rw [toList_render_node] at same
          cases again.append_ne_cons _ _ same.symm
      | node otherLeft otherHandle otherOperator otherRight =>
          rw [plain_node_iff] at again
          obtain ⟨againLeft, againOperator, againRight⟩ := again
          have space : Text.separates ' ' = true := rfl
          have close : Text.separates ')' = true := rfl
          simp only [toList_render_node, List.cons_append, List.append_assoc, List.nil_append,
            List.cons.injEq, true_and] at same
          -- A space ends the left side and the operator, and the last parenthesis the right side.
          obtain ⟨matchesLeft, afterLeft⟩ := ihLeft plainLeft againLeft (Text.parts_cons space _)
            (Text.parts_cons space _) same
          obtain ⟨rfl, afterOperator⟩ := plainOperator.append_inj againOperator
            (Text.parts_cons space _) (Text.parts_cons space _) (List.cons.inj afterLeft).2
          obtain ⟨matchesRight, afterRight⟩ := ihRight plainRight againRight
            (Text.parts_cons close _) (Text.parts_cons close _) (List.cons.inj afterOperator).2
          exact ⟨.node matchesLeft matchesRight _ _ _, (List.cons.inj afterRight).2⟩

/-- Trees of plain words with one text match. -/
theorem matches_of_render_eq {left right : Tree} (plain : left.Plain) (again : right.Plain)
    (same : left.render = right.render) : left.Matches right := by
  have whole : left.render.toList ++ [] = right.render.toList ++ [] := by rw [same]
  exact (matches_of_render_append plain again Text.parts_nil Text.parts_nil whole).1

/-- Without the parentheses each word stands behind a space. -/
theorem filter_render {tree : Tree} (plain : tree.Plain) :
    ' ' :: (tree.render.toList.filter fun c => !Text.isParenthesis c) =
      tree.texts.flatMap fun text => ' ' :: text.toList := by
  induction tree with
  | leaf text =>
      rw [plain_leaf_iff] at plain
      rw [render, plain.filter_eq_self, texts_leaf, List.flatMap_singleton]
  | node left handle operator right ihLeft ihRight =>
      rw [plain_node_iff] at plain
      obtain ⟨plainLeft, plainOperator, plainRight⟩ := plain
      have opening : Text.isParenthesis '(' = true := rfl
      have space : Text.isParenthesis ' ' = false := rfl
      have closing : Text.isParenthesis ')' = true := rfl
      rw [texts_node, List.flatMap_append, List.flatMap_cons, ← ihLeft plainLeft,
        ← ihRight plainRight, toList_render_node]
      simp [plainOperator.filter_eq_self, opening, space, closing]

/-- Without its parentheses the text of a tree is its words, joined by spaces. -/
theorem withoutParentheses_render {tree : Tree} (plain : tree.Plain) :
    Text.withoutParentheses tree.render = " ".intercalate tree.texts := by
  obtain ⟨first, others, texts⟩ := List.exists_cons_of_ne_nil tree.texts_ne_nil
  have spaced := filter_render plain
  rw [texts, List.flatMap_cons, List.cons_append, List.cons.injEq] at spaced
  apply String.toList_inj.mp
  rw [Text.withoutParentheses, String.toList_ofList, spaced.2, String.toList_intercalate, texts,
    List.map_cons]
  exact (congrArg (first.toList ++ ·) (List.flatMap_map ..).symm).trans
    (intercalate_cons ' ' _ _).symm

end Tree

namespace Registry

/-- Hooks do not matter to the levels. -/
theorem Tracked.leveled {registry : Registry Hook} (tracked : registry.Tracked) :
    registry.Leveled := by
  obtain ⟨_, represents⟩ := tracked.represents_bare
  intro handle
  rw [← tier?_bare]
  exact represents.leveled handle

/-- A grouping is the text of a parse that has read everything. -/
theorem group_eq_ok_iff (registry : Registry Hook) (source text : String) :
    registry.group source = .ok text ↔ ∃ parse, registry.parse source = .ok parse ∧
      parse.consumed = parse.total ∧ parse.tree.render = text := by
  rw [group]
  cases registry.parse source with
  | error fault => simp
  | ok parse => by_cases all : parse.consumed = parse.total <;> simp [all]

/-- A parse that reads all items puts every word of the source into its tree. -/
theorem Tracked.texts_of_parse {registry : Registry Hook} (tracked : registry.Tracked)
    {source : String}
    {parse : Parse} (parsed : registry.parse source = .ok parse)
    (all : parse.consumed = parse.total) : parse.tree.texts = Text.words source := by
  have lexed := tracked.lex_eq source
  rw [parse_of_lex lexed] at parsed
  cases climbed : registry.climbResult none ((Text.words source).map registry.classify) with
  | error fault =>
      rw [climbed] at parsed
      cases parsed
  | ok parts =>
      obtain ⟨tree, rest⟩ := parts
      rw [climbed] at parsed
      cases parsed
      have items := (reads_of_climbResult tracked.leveled climbed).1.items_eq
      have counted := congrArg List.length items
      rw [List.length_append] at counted
      have done : rest = [] := by
        apply List.eq_nil_of_length_eq_zero
        simp only at all
        omega
      rw [done, List.append_nil] at items
      rw [Tree.texts, items, List.map_map]
      conv_rhs => rw [← List.map_id (Text.words source)]
      exact List.map_congr_left fun word _ => registry.text_classify word

/-- The registry groups the source as the tree, which has the words of the source at its places and is
written as the text. -/
structure GroupsAs (registry : Registry Hook) (source : String) (tree : Tree) (text : String) :
    Prop where
  parse : ∃ count, registry.parse source = .ok ⟨tree, count, count⟩
  texts : tree.texts = Text.words source
  render : tree.render = text

/-- Every grouping is the text of a tree. -/
theorem Tracked.exists_groupsAs {registry : Registry Hook} (tracked : registry.Tracked)
    {source text : String} (grouped : registry.group source = .ok text) :
    ∃ tree, registry.GroupsAs source tree text := by
  obtain ⟨⟨tree, consumed, total⟩, parsed, all, written⟩ :=
    (registry.group_eq_ok_iff source text).mp grouped
  have texts := tracked.texts_of_parse parsed all
  cases all
  exact ⟨tree, ⟨consumed, parsed⟩, texts, written⟩

/-- The words of a source without parentheses are plain. -/
theorem GroupsAs.plain {registry : Registry Hook} {source text : String} {tree : Tree}
    (groups : registry.GroupsAs source tree text) (plain : Text.Unparenthesised source) :
    tree.Plain := by
  intro word member
  exact plain.isPlain (groups.texts ▸ member)

/-- Groupings with one text come from sources with the same words, and their trees match. Without its
parentheses the text is these words with single spaces between them. -/
theorem Tracked.group_unambiguous {one other : Registry Hook} (first : one.Tracked)
    (second : other.Tracked) {source target text : String} (plain : Text.Unparenthesised source)
    (again : Text.Unparenthesised target) (grouped : one.group source = .ok text)
    (regrouped : other.group target = .ok text) :
    Text.words source = Text.words target ∧
      Text.withoutParentheses text = " ".intercalate (Text.words source) ∧
      ∃ tree twin, one.GroupsAs source tree text ∧ other.GroupsAs target twin text ∧
        tree.Matches twin := by
  obtain ⟨tree, groups⟩ := first.exists_groupsAs grouped
  obtain ⟨twin, regroups⟩ := second.exists_groupsAs regrouped
  have alike : tree.Matches twin := Tree.matches_of_render_eq (groups.plain plain)
    (regroups.plain again) (groups.render.trans regroups.render.symm)
  refine ⟨?_, ?_, tree, twin, groups, regroups, alike⟩
  · rw [← groups.texts, ← regroups.texts, alike.texts_eq]
  · rw [← groups.render, Tree.withoutParentheses_render (groups.plain plain), groups.texts]

/-- Behind exponentiation an operator of its tier goes to the right side. -/
theorem group_of_exponents {registry : Registry Hook} {source : String}
    {first second third : String}
    {outer inner : Handle} {sign word : String}
    (lexed : registry.lex source = .ok [.operand first, .operator outer sign, .operand second,
      .operator inner word, .operand third])
    (outerBinding : registry.binding outer sign = .ok (.binary Level.exponent, .right))
    (innerBinding : registry.binding inner word = .ok (.binary Level.exponent, .left)) :
    registry.group source = .ok (Tree.node (.leaf first) outer sign
      (.node (.leaf second) inner word (.leaf third))).render := by
  have below : (Tier.binary Level.exponent).rightBound .right =
      .ok (some (.binary Level.multiplicative)) := by decide
  have within : (Tier.binary Level.exponent).within (some (.binary Level.multiplicative)) =
      true := by decide
  rw [group, parse_of_lex lexed, climbResult_operand,
    extendResult_of_within registry none outerBinding rfl below, climbResult_operand,
    extendResult_of_within registry _ innerBinding within rfl, climbResult_operand]
  simp only [extendResult_nil, Except.bind]
  rfl

/-- Another word before `pow` moves its handle, and other white space stands between the words. The
text is the same, and so are the words and the shape of the tree. -/
theorem group_unambiguous_of_moved_handle :
    let one := ((new String).register "pow" (.binary Level.exponent)).1
    let second := (((new String).register "if" .plain).1.register "pow" (.binary Level.exponent)).1
    let other : Registry String :=
      ⟨(second.catalog.attach (.ofPosition 41) "powers").1, second.keywords⟩
    let source := "a ** b pow c"
    let target := "\ta\u3000** b pow\nc "
    let text := "(a ** (b pow c))"
    one.Tracked ∧ other.Tracked ∧ one.keyword? "pow" ≠ other.keyword? "pow" ∧
      one.group source = .ok text ∧ other.group target = .ok text ∧
      Text.words source = Text.words target ∧ Text.withoutParentheses text = source ∧
      ∃ tree twin, one.GroupsAs source tree text ∧ other.GroupsAs target twin text ∧
        tree.Matches twin := by
  intro one second other source target text
  have first : one.Tracked := .register (.reachable .new) _ _
  have tracked : other.Tracked := .attach (.register (.register (.reachable .new) _ _) _ _) _ _
  have plain : Text.Unparenthesised source := by decide +kernel
  have again : Text.Unparenthesised target := by decide +kernel
  have moved : one.keyword? "pow" ≠ other.keyword? "pow" := by decide +kernel
  have known : one.lex source = .ok [.operand "a", .operator (.ofPosition 39) "**", .operand "b",
        .operator (.ofPosition 40) "pow", .operand "c"] ∧
      one.binding (.ofPosition 39) "**" = .ok (.binary Level.exponent, .right) ∧
      one.binding (.ofPosition 40) "pow" = .ok (.binary Level.exponent, .left) := by
    decide +kernel
  have found : other.lex target = .ok [.operand "a", .operator (.ofPosition 39) "**", .operand "b",
        .operator (.ofPosition 41) "pow", .operand "c"] ∧
      other.binding (.ofPosition 39) "**" = .ok (.binary Level.exponent, .right) ∧
      other.binding (.ofPosition 41) "pow" = .ok (.binary Level.exponent, .left) := by
    decide +kernel
  have grouped : one.group source = .ok text :=
    group_of_exponents known.1 known.2.1 known.2.2
  have regrouped : other.group target = .ok text :=
    group_of_exponents found.1 found.2.1 found.2.2
  have spaced : " ".intercalate (Text.words source) = source := by decide +kernel
  obtain ⟨words, joined, trees⟩ := first.group_unambiguous tracked plain again grouped regrouped
  exact ⟨first, tracked, moved, grouped, regrouped, words, joined.trans spaced, trees⟩

end Registry

end Lexicon
