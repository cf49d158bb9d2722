import Marmoset.Proofs.Grammar.Derivation
import Marmoset.Proofs.Token.Lexeme
import Marmoset.Tree.Canonical
import Marmoset.Tree.Shape

/-!
Texts that spell a tree: they are scanned to tokens from which the tree is derived, but for places.
Each form of the language is spelled from the texts of its parts, and no lexeme of one part runs into
the next one.
-/

namespace Marmoset

open Marmoset.Derivation Token

def isIdentifier (text : String) : Bool :=
  match text.toList with
  | [] => false
  | c :: more => isWordStart c && more.all isWordPart && decide (TokenKind.ofWord text = .ident)

/-- A text that is scanned to an expression and has the tree given, but for places. -/
structure Spells (text : List Char) (tree : Node) : Prop where
  start : ∀ rest, (text ++ rest).head? ≠ some '='
  scanned : ∀ place rest, Bounded rest → ∃ tokens node, Passes text rest place tokens ∧
    Expression .application tokens node ∧ node.bare = tree.bare

def SpellsAll (text : List Char) (trees : List Node) : Prop :=
  ∀ place rest, Bounded rest → ∃ tokens nodes, Passes text rest place tokens ∧
    Listing tokens nodes ∧ Node.bareAll nodes = Node.bareAll trees

def SpellsPairs (text : List Char) (trees : List (Node × Node)) : Prop :=
  ∀ place rest, Bounded rest → ∃ tokens nodes, Passes text rest place tokens ∧
    Pairs tokens nodes ∧ Node.barePairs nodes = Node.barePairs trees

theorem passes_identifier (text : String) (valid : isIdentifier text = true) (rest : List Char)
    (place : Place) (bounded : Bounded rest) :
    Passes text.toList rest place [⟨.ident, text, place.line, place.column⟩] := by
  unfold isIdentifier at valid
  split at valid
  · cases valid
  · rename_i c more shape
    simp only [Bool.and_eq_true, decide_eq_true_eq] at valid
    rcases valid with ⟨⟨start, parts⟩, kind⟩
    have passes := passes_word c more rest place start parts bounded
    rw [← shape, String.ofList_toList, kind] at passes
    exact passes

theorem identifier_start (text : String) (valid : isIdentifier text = true) (rest : List Char) :
    (text.toList ++ rest).head? ≠ some '=' := by
  unfold isIdentifier at valid
  split at valid
  · cases valid
  · rename_i c more shape
    simp only [Bool.and_eq_true] at valid
    rw [shape]
    intro same
    cases same
    exact absurd valid.1.1 (by decide)

theorem identifier_spelled (name : Name) (valid : isIdentifier name.text = true) :
    Spells name.text.toList (.identifier name) := by
  refine ⟨identifier_start name.text valid, ?_⟩
  intro place rest bounded
  exact ⟨_, _, passes_identifier name.text valid rest place bounded, .tighter (.identifier rfl), rfl⟩

theorem leaf_spelled (c : Char) (more : List Char) (tree : Node) (start : c ≠ '=')
    (scanned : ∀ place rest, Bounded rest → ∃ token node, Passes (c :: more) rest place [token] ∧
      Expression .primary [token] node ∧ node.bare = tree.bare) : Spells (c :: more) tree := by
  constructor
  · intro rest same
    cases same
    exact start rfl
  · intro place rest bounded
    rcases scanned place rest bounded with ⟨token, node, passes, derived, same⟩
    exact ⟨[token], node, passes, .tighter derived, same⟩

theorem boolean_spelled (value : Bool) (line : Int) :
    Spells (Node.boolean value line).canonical.toList (.boolean value line) := by
  cases value with
  | true =>
      have text : (Node.boolean true line).canonical.toList = ['t', 'r', 'u', 'e'] := by
        simp [Node.canonical]
      rw [text]
      refine leaf_spelled 't' ['r', 'u', 'e'] _ (by decide) ?_
      intro place rest bounded
      have passes := passes_word 't' ['r', 'u', 'e'] rest place rfl rfl bounded
      exact ⟨_, _, passes, .truth rfl, rfl⟩
  | false =>
      have text : (Node.boolean false line).canonical.toList = ['f', 'a', 'l', 's', 'e'] := by
        simp [Node.canonical]
      rw [text]
      refine leaf_spelled 'f' ['a', 'l', 's', 'e'] _ (by decide) ?_
      intro place rest bounded
      have passes := passes_word 'f' ['a', 'l', 's', 'e'] rest place rfl rfl bounded
      exact ⟨_, _, passes, .falsehood rfl, rfl⟩

theorem integer_spelled (value : Nat) (line : Int) (small : value ≤ 0x7fffffffffffffff) :
    Spells (Node.integer value line).canonical.toList (.integer value line) := by
  have text : (Node.integer value line).canonical = toString value := rfl
  have written := Text.numeral_repr value small
  have digits : ∀ c ∈ (toString value).toList, isDigit c = true := by
    intro c member
    rw [Nat.toString_eq_repr, Nat.toList_repr] at member
    have digit := Nat.isDigit_of_mem_toDigits (by decide) (by decide) member
    exact (isDigit_iff c).mpr (Char.isDigit_iff_toNat.mp digit)
  rw [text]
  cases shape : (toString value).toList with
  | nil =>
      rw [Nat.toString_eq_repr, Nat.toList_repr] at shape
      exact absurd shape Nat.toDigits_ne_nil
  | cons c more =>
      rw [shape] at digits
      have first := digits c List.mem_cons_self
      refine leaf_spelled c more _ ?_ ?_
      · rintro rfl
        exact absurd first (by decide)
      · intro place rest bounded
        have others : more.all isDigit = true :=
          List.all_eq_true.mpr fun c member => digits c (List.mem_cons_of_mem _ member)
        have passes := passes_number c more rest place first others bounded
        rw [← shape, String.ofList_toList, shape] at passes
        exact ⟨_, _, passes, .integer rfl written small, rfl⟩

theorem string_spelled (value : String) (line : Int) (plain : '"' ∉ value.toList) :
    Spells (Node.string value line).canonical.toList (.string value line) := by
  have text : (Node.string value line).canonical.toList = '"' :: (value.toList ++ ['"']) := by
    simp [Node.canonical]
  rw [text]
  refine leaf_spelled '"' _ _ (by decide) ?_
  intro place rest bounded
  have passes := passes_quoted value.toList rest place plain
  rw [String.ofList_toList] at passes
  exact ⟨_, _, passes, .string rfl, rfl⟩

section Compound

theorem passes_enclosed (first last : Char) (opening closing : TokenKind) (inner rest : List Char)
    (place : Place) (tokens : List Token) (opened : TokenKind.ofChar? first = some opening)
    (closed : TokenKind.ofChar? last = some closing)
    (signs : (first ≠ '=' ∧ first ≠ '!') ∧ last ≠ '=' ∧ last ≠ '!')
    (passes : Passes inner (last :: rest) (place.after [first]) tokens) :
    ∃ before behind, before.kind = opening ∧ behind.kind = closing ∧
      Passes (first :: (inner ++ [last])) rest place (before :: (tokens ++ [behind])) := by
  have left := passes_delimiter first opening (inner ++ [last] ++ rest) place opened signs.1
  have right := passes_delimiter last closing rest ((place.after [first]).after inner) closed signs.2
  exact ⟨_, _, rfl, rfl, left.append (passes.append right)⟩

theorem spellsAll_nil : SpellsAll [] [] :=
  fun place rest _ => ⟨[], [], Passes.nil rest place, .none, rfl⟩

theorem spellsAll_single (text : List Char) (tree : Node) (spelled : Spells text tree) :
    SpellsAll text [tree] := by
  intro place rest bounded
  rcases spelled.scanned place rest bounded with ⟨tokens, node, passes, derived, same⟩
  exact ⟨tokens, [node], passes, .last derived.loosest, by simp only [Node.bareAll, same]⟩

theorem spellsAll_cons (text more : List Char) (tree next : Node) (trees : List Node)
    (spelled : Spells text tree) (others : SpellsAll more (next :: trees)) :
    SpellsAll (text ++ ([',', ' '] ++ more)) (tree :: next :: trees) := by
  intro place rest bounded
  rcases spelled.scanned place ([',', ' '] ++ more ++ rest) (.cons rfl) with
    ⟨tokens, node, passes, derived, same⟩
  have comma := passes_spaced ',' .comma (more ++ rest) (place.after text) rfl (by decide)
  rcases others ((place.after text).after [',', ' ']) rest bounded with
    ⟨behind, nodes, onward, listed, alike⟩
  have whole := passes.append (comma.append onward)
  cases nodes with
  | nil => cases alike
  | cons second nodes =>
      refine ⟨_, node :: second :: nodes, whole, .more derived.loosest rfl listed, ?_⟩
      simp only [Node.bareAll] at alike ⊢
      rw [same, alike]

theorem pair_spelled (key value : List Char) (keyTree valueTree : Node) (first : Spells key keyTree)
    (second : Spells value valueTree) (place : Place) (rest : List Char) (bounded : Bounded rest) :
    ∃ before colon after keyNode valueNode,
      Passes (key ++ ([':', ' '] ++ value)) rest place (before ++ colon :: after) ∧
        Expression .equality before keyNode ∧ colon.kind = .colon ∧
        Expression .equality after valueNode ∧ keyNode.bare = keyTree.bare ∧
        valueNode.bare = valueTree.bare := by
  rcases first.scanned place ([':', ' '] ++ value ++ rest) (.cons rfl) with
    ⟨before, keyNode, passes, derived, same⟩
  have colon := passes_spaced ':' .colon (value ++ rest) (place.after key) rfl (by decide)
  rcases second.scanned ((place.after key).after [':', ' ']) rest bounded with
    ⟨after, valueNode, onward, valued, alike⟩
  have whole := passes.append (colon.append onward)
  exact ⟨before, _, after, keyNode, valueNode, whole, derived.loosest, rfl, valued.loosest, same, alike⟩

theorem spellsPairs_nil : SpellsPairs [] [] :=
  fun place rest _ => ⟨[], [], Passes.nil rest place, .none, rfl⟩

theorem spellsPairs_single (key value : List Char) (keyTree valueTree : Node)
    (first : Spells key keyTree) (second : Spells value valueTree) :
    SpellsPairs (key ++ ([':', ' '] ++ value)) [(keyTree, valueTree)] := by
  intro place rest bounded
  rcases pair_spelled key value keyTree valueTree first second place rest bounded with
    ⟨before, colon, after, keyNode, valueNode, passes, keyed, divided, valued, same, alike⟩
  refine ⟨_, [(keyNode, valueNode)], passes, .last keyed divided valued, ?_⟩
  simp only [Node.barePairs, same, alike]

theorem spellsPairs_cons (key value more : List Char) (keyTree valueTree : Node)
    (trees : List (Node × Node)) (first : Spells key keyTree) (second : Spells value valueTree)
    (others : SpellsPairs more trees) :
    SpellsPairs (key ++ ([':', ' '] ++ value) ++ ([',', ' '] ++ more))
      ((keyTree, valueTree) :: trees) := by
  intro place rest bounded
  rcases pair_spelled key value keyTree valueTree first second place ([',', ' '] ++ more ++ rest)
      (.cons rfl) with
    ⟨before, colon, after, keyNode, valueNode, passes, keyed, divided, valued, same, alike⟩
  have comma := passes_spaced ',' .comma (more ++ rest)
    (place.after (key ++ ([':', ' '] ++ value))) rfl (by decide)
  generalize shape : Token.mk .comma _ _ _ = sign at comma
  have kind : sign.kind = .comma := by rw [← shape]
  rcases others ((place.after (key ++ ([':', ' '] ++ value))).after [',', ' ']) rest bounded with
    ⟨behind, nodes, onward, listed, alikeRest⟩
  have whole := passes.append (comma.append onward)
  have tokens : before ++ colon :: after ++ ([sign] ++ behind) =
      before ++ colon :: (after ++ sign :: behind) := by simp
  rw [tokens] at whole
  refine ⟨_, (keyNode, valueNode) :: nodes, whole, .more keyed divided valued kind listed, ?_⟩
  simp only [Node.barePairs, same, alike, alikeRest]

theorem array_spelled (text : List Char) (trees : List Node) (line : Int)
    (listed : SpellsAll text trees) : Spells ('[' :: (text ++ [']'])) (.array trees line) := by
  refine ⟨by simp, ?_⟩
  intro place rest bounded
  rcases listed (place.after ['[']) (']' :: rest) (.cons rfl) with
    ⟨tokens, nodes, passes, derived, same⟩
  rcases passes_enclosed '[' ']' .lbracket .rbracket text rest place tokens rfl rfl (by decide) passes
    with ⟨before, behind, opened, closed, whole⟩
  refine ⟨_, .array nodes before.line, whole, .tighter (.array opened derived closed), ?_⟩
  simp only [Node.bare, same]

theorem map_spelled (text : List Char) (trees : List (Node × Node)) (line : Int)
    (listed : SpellsPairs text trees) :
    Spells ('\x7b' :: (text ++ ['\x7d'])) (.map trees line) := by
  refine ⟨by simp, ?_⟩
  intro place rest bounded
  rcases listed (place.after ['\x7b']) ('\x7d' :: rest) (.cons rfl) with
    ⟨tokens, nodes, passes, derived, same⟩
  rcases passes_enclosed '\x7b' '\x7d' .lbrace .rbrace text rest place tokens rfl rfl (by decide)
    passes with ⟨before, behind, opened, closed, whole⟩
  refine ⟨_, .map nodes before.line, whole, .tighter (.map opened derived closed), ?_⟩
  simp only [Node.bare, same]

theorem group_spelled (text : List Char) (tree : Node)
    (scanned : ∀ place rest, Bounded rest → ∃ tokens node, Passes text rest place tokens ∧
      Expression .equality tokens node ∧ node.bare = tree.bare) :
    Spells ('(' :: (text ++ [')'])) tree := by
  refine ⟨by simp, ?_⟩
  intro place rest bounded
  rcases scanned (place.after ['(']) (')' :: rest) (.cons rfl) with
    ⟨tokens, node, passes, derived, same⟩
  rcases passes_enclosed '(' ')' .lparen .rparen text rest place tokens rfl rfl (by decide) passes
    with ⟨before, behind, opened, closed, whole⟩
  exact ⟨_, node, whole, .tighter (.group opened derived closed), same⟩

theorem unary_spelled (text : List Char) (tree : Node) (operator : Operator) (line : Int)
    (leads : operator = .not ∨ operator = .sub) (spelled : Spells text tree) :
    Spells ('(' :: (operator.symbol.toList ++ text ++ [')'])) (.unary operator tree line) := by
  refine group_spelled _ _ ?_
  intro place rest bounded
  have sign : ∃ token : Token, leading? token.kind = some operator ∧
      Passes operator.symbol.toList (text ++ rest) place [token] := by
    rcases leads with rfl | rfl
    · exact ⟨_, rfl, passes_mark '!' .bang (text ++ rest) place rfl fun _ => spelled.start rest⟩
    · exact ⟨_, rfl, passes_delimiter '-' .minus (text ++ rest) place rfl (by decide)⟩
  rcases sign with ⟨token, leading, before⟩
  rcases spelled.scanned (place.after operator.symbol.toList) rest bounded with
    ⟨tokens, node, passes, derived, same⟩
  have operand := derived.loosen .unary (by decide)
  refine ⟨_, _, before.append passes, (Expression.unary leading operand).loosest, ?_⟩
  simp only [Node.bare, same]

theorem passes_sign (operator : Operator) (rest : List Char) (place : Place)
    (binary : operator ≠ .not) : ∃ (token : Token) (stratum : Stratum),
      stratum.operator? token.kind = some operator ∧
        Passes operator.symbol.toList (' ' :: rest) place [token] := by
  cases operator with
  | add => exact ⟨_, .sum, rfl, passes_delimiter '+' .plus _ place rfl (by decide)⟩
  | sub => exact ⟨_, .sum, rfl, passes_delimiter '-' .minus _ place rfl (by decide)⟩
  | mul => exact ⟨_, .product, rfl, passes_delimiter '*' .asterisk _ place rfl (by decide)⟩
  | div => exact ⟨_, .product, rfl, passes_delimiter '/' .slash _ place rfl (by decide)⟩
  | eq => exact ⟨_, .equality, rfl, passes_equal _ place⟩
  | ne => exact ⟨_, .equality, rfl, passes_unequal _ place⟩
  | lt => exact ⟨_, .comparison, rfl, passes_delimiter '<' .lt _ place rfl (by decide)⟩
  | gt => exact ⟨_, .comparison, rfl, passes_delimiter '>' .gt _ place rfl (by decide)⟩
  | not => exact absurd rfl binary

theorem binary_spelled (left right : List Char) (leftTree rightTree : Node) (operator : Operator)
    (line : Int) (binary : operator ≠ .not) (first : Spells left leftTree)
    (second : Spells right rightTree) :
    Spells ('(' :: (left ++ ([' '] ++ (operator.symbol.toList ++ ([' '] ++ right))) ++ [')']))
      (.binary leftTree operator rightTree line) := by
  refine group_spelled _ _ ?_
  intro place rest bounded
  rcases first.scanned place ([' '] ++ (operator.symbol.toList ++ ([' '] ++ right)) ++ rest)
      (.cons rfl) with ⟨before, leftNode, leftPasses, leftDerived, leftSame⟩
  rcases passes_sign operator (right ++ rest) ((place.after left).after [' ']) binary with
    ⟨token, stratum, sign, signPasses⟩
  rcases second.scanned ((((place.after left).after [' ']).after operator.symbol.toList).after [' '])
    rest bounded with ⟨after, rightNode, rightPasses, rightDerived, rightSame⟩
  have whole := leftPasses.append ((passes_space _ _).append
    (signPasses.append ((passes_space _ _).append rightPasses)))
  -- both operands bind tighter than any binary operator, so they fit on either side of this one
  have loose : stratum.rank ≤ Stratum.application.rank ∧
      stratum.tighter.rank ≤ Stratum.application.rank := by
    cases stratum <;> first | decide | cases sign
  have derived := Expression.binary (leftDerived.loosen stratum loose.1) sign
    (rightDerived.loosen stratum.tighter loose.2)
  refine ⟨_, _, whole, derived.loosest, ?_⟩
  simp only [Node.bare, leftSame, rightSame]

theorem call_spelled (text inner : List Char) (callee : Node) (arguments : List Node) (line : Int)
    (spelled : Spells text callee) (listed : SpellsAll inner arguments) :
    Spells (text ++ '(' :: (inner ++ [')'])) (.call callee arguments line) := by
  constructor
  · intro rest
    rw [List.append_assoc]
    exact spelled.start _
  · intro place rest bounded
    rcases spelled.scanned place ('(' :: (inner ++ [')']) ++ rest) (.cons rfl) with
      ⟨tokens, node, passes, derived, same⟩
    rcases listed ((place.after text).after ['(']) (')' :: rest) (.cons rfl) with
      ⟨more, nodes, onward, items, alike⟩
    rcases passes_enclosed '(' ')' .lparen .rparen inner rest (place.after text) more rfl rfl
      (by decide) onward with ⟨before, behind, opened, closed, enclosed⟩
    refine ⟨_, _, passes.append enclosed, .call derived opened items closed, ?_⟩
    simp only [Node.bare, same, alike]

theorem index_spelled (text inner : List Char) (container position : Node) (line : Int)
    (spelled : Spells text container) (indexed : Spells inner position) :
    Spells ('(' :: (text ++ '[' :: (inner ++ [']']) ++ [')'])) (.index container position line) := by
  refine group_spelled _ _ ?_
  intro place rest bounded
  rcases spelled.scanned place ('[' :: (inner ++ [']']) ++ rest) (.cons rfl) with
    ⟨tokens, node, passes, derived, same⟩
  rcases indexed.scanned ((place.after text).after ['[']) (']' :: rest) (.cons rfl) with
    ⟨more, other, onward, items, alike⟩
  rcases passes_enclosed '[' ']' .lbracket .rbracket inner rest (place.after text) more rfl rfl
    (by decide) onward with ⟨before, behind, opened, closed, enclosed⟩
  have whole := Expression.index derived opened items.loosest closed
  refine ⟨_, _, passes.append enclosed, whole.loosest, ?_⟩
  simp only [Node.bare, same, alike]

end Compound

def SpellsSentence (text : List Char) (tree : Node) : Prop :=
  ∀ place rest, ∃ tokens semicolon node, Passes text rest place (tokens ++ [semicolon]) ∧
    semicolon.kind = .semicolon ∧ Sentence tokens node ∧ node.bare = tree.bare

theorem ended_spelled (text rest : List Char) (tree : Node) (place : Place)
    (spelled : Spells text tree) : ∃ tokens semicolon node,
      Passes (text ++ [';']) rest place (tokens ++ [semicolon]) ∧ semicolon.kind = .semicolon ∧
        Expression .equality tokens node ∧ node.bare = tree.bare := by
  rcases spelled.scanned place (';' :: rest) (.cons rfl) with
    ⟨tokens, node, passes, derived, same⟩
  have mark := passes_delimiter ';' .semicolon rest (place.after text) rfl (by decide)
  exact ⟨tokens, _, node, passes.append mark, rfl, derived.loosest, same⟩

theorem binding_spelled (name : Name) (text : List Char) (tree : Node) (line : Int)
    (valid : isIdentifier name.text = true) (spelled : Spells text tree) :
    SpellsSentence (['l', 'e', 't'] ++ ([' '] ++ (name.text.toList ++ ([' '] ++ (['=', ' '] ++
      (text ++ [';'])))))) (.binding name tree line) := by
  intro place rest
  have word := passes_word 'l' ['e', 't']
    ([' '] ++ (name.text.toList ++ ([' '] ++ (['=', ' '] ++ (text ++ [';'])))) ++ rest)
    place rfl rfl (.cons rfl)
  have named (place : Place) := passes_identifier name.text valid
    ([' '] ++ (['=', ' '] ++ (text ++ [';'])) ++ rest) place (.cons rfl)
  have sign (place : Place) : Passes ['=', ' '] (text ++ [';'] ++ rest) place
      [⟨.assign, "=", place.line, place.column⟩] :=
    (passes_mark '=' .assign (' ' :: (text ++ [';'] ++ rest)) place rfl (fun _ => by simp)).append
      (passes_space _ _)
  rcases ended_spelled text rest tree _ spelled with
    ⟨tokens, semicolon, node, passes, kind, derived, same⟩
  have whole := word.append ((passes_space _ _).append ((named _).append ((passes_space _ _).append
    ((sign _).append passes))))
  refine ⟨_ :: _ :: _ :: tokens, semicolon, _, whole, kind, .binding rfl rfl rfl derived, ?_⟩
  simp only [Node.bare, same]
  rfl

theorem returning_spelled (text : List Char) (tree : Node) (line : Int) (spelled : Spells text tree) :
    SpellsSentence (['r', 'e', 't', 'u', 'r', 'n'] ++ ([' '] ++ (text ++ [';'])))
      (.returning tree line) := by
  intro place rest
  have word := passes_word 'r' ['e', 't', 'u', 'r', 'n'] ([' '] ++ (text ++ [';']) ++ rest) place
    rfl rfl (.cons rfl)
  rcases ended_spelled text rest tree _ spelled with
    ⟨tokens, semicolon, node, passes, kind, derived, same⟩
  have whole := word.append ((passes_space _ _).append passes)
  refine ⟨_ :: tokens, semicolon, _, whole, kind, .returning rfl derived, ?_⟩
  simp only [Node.bare, same]

def SpellsStatements (text : List Char) (trees : List Node) : Prop :=
  ∀ place, ∃ tokens nodes, Passes text [] place tokens ∧ Statements .eof tokens nodes ∧
    Node.bareAll nodes = Node.bareAll trees

theorem spellsStatements_last (text : List Char) (tree : Node) (line : Int)
    (spelled : Spells text tree) : SpellsStatements text [.statement tree line] := by
  intro place
  rcases spelled.scanned place [] .nil with ⟨tokens, node, passes, derived, same⟩
  rcases derived.start with ⟨first, others, rfl, -⟩
  have sentence := Sentence.bare derived.loosest
  have alone := Statements.unended sentence (rfl : continues (nextKind [] .eof) = false) .none
  rw [List.append_nil] at alone
  refine ⟨_, _, passes, alone, ?_⟩
  simp only [Node.bareAll, Node.bare, same]

theorem spellsStatements_cons (text more : List Char) (tree : Node) (trees : List Node)
    (spelled : SpellsSentence text tree) (others : SpellsStatements more trees) :
    SpellsStatements (text ++ more) (tree :: trees) := by
  intro place
  rcases spelled place more with ⟨tokens, semicolon, node, passes, kind, sentence, same⟩
  rcases others (place.after text) with ⟨behind, nodes, onward, statements, alike⟩
  rw [← List.append_nil more] at passes
  have whole := passes.append onward
  rw [List.append_assoc] at whole
  refine ⟨_, node :: nodes, whole, .ended sentence kind statements, ?_⟩
  simp only [Node.bareAll, same, alike]

end Marmoset
