import Marmoset.Proofs.Grammar.Completeness
import Marmoset.Proofs.Tree.Spelling

/-!
The canonical text of a tree without conditionals and functions is read as that tree again. The
text of every such tree is a call, or it is closed in itself: whatever is written with an operator or
an index stands in parentheses. So it can stand in the place of any operand.
-/

namespace Marmoset

open Marmoset.Derivation Token

namespace Node

mutual

/-- Trees of names, literals, operators, calls and indices, as the language can write them. -/
def plain : Node → Bool
  | identifier name => isIdentifier name.text
  | integer value _ => 0 ≤ value && value ≤ 0x7fffffffffffffff
  | boolean _ _ => true
  | string value _ => !value.toList.contains '"'
  | array elements _ => plainAll elements
  | map pairs _ => plainPairs pairs
  | unary operator operand _ => (operator = .not || operator = .sub) && plain operand
  | binary left operator right _ => operator ≠ .not && plain left && plain right
  | call callee arguments _ => plain callee && plainAll arguments
  | index container position _ => plain container && plain position
  | _ => false
termination_by structural node => node

def plainAll : List Node → Bool
  | [] => true
  | node :: nodes => plain node && plainAll nodes
termination_by structural nodes => nodes

def plainPairs : List (Node × Node) → Bool
  | [] => true
  | (key, value) :: pairs => plain key && plain value && plainPairs pairs
termination_by structural pairs => pairs

end

/-- Bindings and returns, and an expression in the last place only. -/
def plainStatements : List Node → Bool
  | [] => true
  | [statement expression _] => expression.plain
  | binding name value _ :: rest => isIdentifier name.text && value.plain && plainStatements rest
  | returning value _ :: rest => value.plain && plainStatements rest
  | _ => false

mutual

theorem canonical_bare : (node : Node) → node.bare.canonical = node.canonical
  | identifier _ => rfl
  | integer _ _ => rfl
  | boolean _ _ => rfl
  | string _ _ => rfl
  | array elements _ => by rw [bare, canonical, canonical, canonicals_bare elements]
  | map pairs _ => by rw [bare, canonical, canonical, canonicalPairs_bare pairs]
  | unary _ operand _ => by rw [bare, canonical, canonical, canonical_bare operand]
  | binary left _ right _ => by
      rw [bare, canonical, canonical, canonical_bare left, canonical_bare right]
  | conditional condition consequence none _ => by
      rw [bare, canonical, canonical, canonical_bare condition, canonical_bare consequence]
  | conditional condition consequence (some alternative) _ => by
      rw [bare, canonical, canonical, canonical_bare condition, canonical_bare consequence,
        canonical_bare alternative]
  | function parameters body _ => by
      rw [bare, canonical, canonical, canonical_bare body, List.map_map]
      rfl
  | call callee arguments _ => by
      rw [bare, canonical, canonical, canonical_bare callee, canonicals_bare arguments]
  | index container position _ => by
      rw [bare, canonical, canonical, canonical_bare container, canonical_bare position]
  | binding name value _ => by
      rw [bare, canonical, canonical, canonical_bare value]
      rfl
  | returning value _ => by rw [bare, canonical, canonical, canonical_bare value]
  | statement expression _ => by rw [bare, canonical, canonical, canonical_bare expression]
  | block statements _ => by rw [bare, canonical, canonical, canonicals_bare statements]
  | program statements => by rw [bare, canonical, canonical, canonicals_bare statements]
  | foreign _ => rfl
termination_by structural node => node

theorem canonicals_bare : (nodes : List Node) → canonicals (bareAll nodes) = canonicals nodes
  | [] => rfl
  | node :: nodes => by
      rw [bareAll, canonicals, canonicals, canonical_bare node, canonicals_bare nodes]
termination_by structural nodes => nodes

theorem canonicalPairs_bare : (pairs : List (Node × Node)) →
    canonicalPairs (barePairs pairs) = canonicalPairs pairs
  | [] => rfl
  | (key, value) :: pairs => by
      rw [barePairs, canonicalPairs, canonicalPairs, canonical_bare key, canonical_bare value,
        canonicalPairs_bare pairs]
termination_by structural pairs => pairs

end

theorem canonical_of_bare (first second : Node) (same : first.bare = second.bare) :
    first.canonical = second.canonical := by
  rw [← canonical_bare first, same, canonical_bare second]

end Node

mutual

/-- Every plain tree is spelled by its canonical text. -/
theorem canonical_spells : (tree : Node) → tree.plain = true → Spells tree.canonical.toList tree
  | .identifier name, plain => identifier_spelled name plain
  | .integer value line, plain => by
      simp only [Node.plain, Bool.and_eq_true, decide_eq_true_eq] at plain
      rcases Int.eq_ofNat_of_zero_le plain.1 with ⟨number, rfl⟩
      exact integer_spelled number line (by omega)
  | .boolean value line, _ => boolean_spelled value line
  | .string value line, plain => string_spelled value line (by simpa [Node.plain] using plain)
  | .array elements line, plain => by
      have text : (Node.array elements line).canonical.toList =
          '[' :: ((", ".intercalate (Node.canonicals elements)).toList ++ [']']) := by
        simp [Node.canonical]
      rw [text]
      exact array_spelled _ elements line (canonicals_spell elements plain)
  | .map pairs line, plain => by
      have text : (Node.map pairs line).canonical.toList =
          '\x7b' :: ((", ".intercalate (Node.canonicalPairs pairs)).toList ++ ['\x7d']) := by
        simp [Node.canonical]
      rw [text]
      exact map_spelled _ pairs line (canonicalPairs_spell pairs plain)
  | .unary operator operand line, plain => by
      simp only [Node.plain, Bool.and_eq_true, Bool.or_eq_true, decide_eq_true_eq] at plain
      have text : (Node.unary operator operand line).canonical.toList =
          '(' :: (operator.symbol.toList ++ operand.canonical.toList ++ [')']) := by
        simp [Node.canonical]
      rw [text]
      exact unary_spelled _ operand operator line plain.1 (canonical_spells operand plain.2)
  | .binary left operator right line, plain => by
      simp only [Node.plain, Bool.and_eq_true, decide_eq_true_eq] at plain
      have text : (Node.binary left operator right line).canonical.toList =
          '(' :: (left.canonical.toList ++
            ([' '] ++ (operator.symbol.toList ++ ([' '] ++ right.canonical.toList))) ++ [')']) := by
        simp [Node.canonical]
      rw [text]
      exact binary_spelled _ _ left right operator line plain.1.1
        (canonical_spells left plain.1.2) (canonical_spells right plain.2)
  | .call callee arguments line, plain => by
      simp only [Node.plain, Bool.and_eq_true] at plain
      have text : (Node.call callee arguments line).canonical.toList = callee.canonical.toList ++
          '(' :: ((", ".intercalate (Node.canonicals arguments)).toList ++ [')']) := by
        simp [Node.canonical]
      rw [text]
      exact call_spelled _ _ callee arguments line (canonical_spells callee plain.1)
        (canonicals_spell arguments plain.2)
  | .index container position line, plain => by
      simp only [Node.plain, Bool.and_eq_true] at plain
      have text : (Node.index container position line).canonical.toList =
          '(' :: (container.canonical.toList ++ '[' :: (position.canonical.toList ++ [']']) ++ [')']) := by
        simp [Node.canonical]
      rw [text]
      exact index_spelled _ _ container position line (canonical_spells container plain.1)
        (canonical_spells position plain.2)
  | .conditional .., plain | .function .., plain | .binding .., plain | .returning .., plain
  | .statement .., plain | .block .., plain | .program .., plain | .foreign _, plain => nomatch plain
termination_by structural tree => tree

theorem canonicals_spell : (trees : List Node) → Node.plainAll trees = true →
    SpellsAll (", ".intercalate (Node.canonicals trees)).toList trees
  | [], _ => spellsAll_nil
  | [tree], plain => by
      simp only [Node.plainAll, Bool.and_true] at plain
      exact spellsAll_single _ tree (canonical_spells tree plain)
  | tree :: next :: trees, plain => by
      rw [Node.plainAll, Bool.and_eq_true] at plain
      have text : (", ".intercalate (Node.canonicals (tree :: next :: trees))).toList =
          tree.canonical.toList ++
            ([',', ' '] ++ (", ".intercalate (Node.canonicals (next :: trees))).toList) := by
        simp [Node.canonicals]
      rw [text]
      exact spellsAll_cons _ _ tree next trees (canonical_spells tree plain.1)
        (canonicals_spell (next :: trees) plain.2)
termination_by structural trees => trees

theorem canonicalPairs_spell : (pairs : List (Node × Node)) → Node.plainPairs pairs = true →
    SpellsPairs (", ".intercalate (Node.canonicalPairs pairs)).toList pairs
  | [], _ => spellsPairs_nil
  | [(key, value)], plain => by
      simp only [Node.plainPairs, Bool.and_true, Bool.and_eq_true] at plain
      have text : (", ".intercalate (Node.canonicalPairs [(key, value)])).toList =
          key.canonical.toList ++ ([':', ' '] ++ value.canonical.toList) := by
        simp [Node.canonicalPairs]
      rw [text]
      exact spellsPairs_single _ _ key value (canonical_spells key plain.1)
        (canonical_spells value plain.2)
  | (key, value) :: next :: pairs, plain => by
      rw [Node.plainPairs, Bool.and_eq_true, Bool.and_eq_true] at plain
      have text : (", ".intercalate (Node.canonicalPairs ((key, value) :: next :: pairs))).toList =
          key.canonical.toList ++ ([':', ' '] ++ value.canonical.toList) ++
            ([',', ' '] ++ (", ".intercalate (Node.canonicalPairs (next :: pairs))).toList) := by
        rcases next with ⟨nextKey, nextValue⟩
        simp [Node.canonicalPairs]
      rw [text]
      exact spellsPairs_cons _ _ _ key value (next :: pairs) (canonical_spells key plain.1.1)
        (canonical_spells value plain.1.2) (canonicalPairs_spell (next :: pairs) plain.2)
termination_by structural pairs => pairs

end

theorem join_spells (statements : List Node) (plain : Node.plainStatements statements = true) :
    SpellsStatements (String.join (Node.canonicals statements)).toList statements := by
  induction statements using Node.plainStatements.induct with
  | case1 => exact fun place => ⟨[], [], Passes.nil [] place, .none, rfl⟩
  | case2 expression line =>
      have text : (String.join (Node.canonicals [.statement expression line])).toList =
          expression.canonical.toList := by
        simp [Node.canonicals, Node.canonical]
      rw [text]
      exact spellsStatements_last _ expression line (canonical_spells expression plain)
  | case3 name value line rest ih =>
      simp only [Node.plainStatements, Bool.and_eq_true] at plain
      have text : (String.join (Node.canonicals (.binding name value line :: rest))).toList =
          ['l', 'e', 't'] ++ ([' '] ++ (name.text.toList ++ ([' '] ++ (['=', ' '] ++
            (value.canonical.toList ++ [';']))))) ++ (String.join (Node.canonicals rest)).toList := by
        simp [Node.canonicals, Node.canonical]
      rw [text]
      exact spellsStatements_cons _ _ _ rest
        (binding_spelled name _ value line plain.1.1 (canonical_spells value plain.1.2)) (ih plain.2)
  | case4 value line rest ih =>
      simp only [Node.plainStatements, Bool.and_eq_true] at plain
      have text : (String.join (Node.canonicals (.returning value line :: rest))).toList =
          ['r', 'e', 't', 'u', 'r', 'n'] ++ ([' '] ++ (value.canonical.toList ++ [';'])) ++
            (String.join (Node.canonicals rest)).toList := by
        simp [Node.canonicals, Node.canonical]
      rw [text]
      exact spellsStatements_cons _ _ _ rest
        (returning_spelled _ value line (canonical_spells value plain.1)) (ih plain.2)
  | case5 statements notEmpty notLast notBinding notReturn =>
      rw [Node.plainStatements] at plain
      · cases plain
      all_goals assumption

/-- The canonical text of a plain program is read as a program of the same shape. -/
theorem program_read_back (statements : List Node) (plain : Node.plainStatements statements = true)
    (limit : Nat) : ∃ reading,
      Grammar.read limit (Node.program statements).canonical = .ok reading ∧
        ((reading.diagnostics = [] ∧ reading.program.bare = (Node.program statements).bare) ∨
          (limit < 9 * (Node.program statements).canonical.length + 9 ∧ reading.BrokenOff)) := by
  rcases join_spells statements plain Place.start with ⟨tokens, nodes, passes, derived, same⟩
  have text : (Node.program statements).canonical = String.join (Node.canonicals statements) := rfl
  rw [Passes, List.append_nil, ← text] at passes
  -- no more tokens than characters, so a stack for the characters is one for the tokens
  have few : tokens.length ≤ (Node.program statements).canonical.length := by
    have total := length_scanFrom 0 Place.start (Node.program statements).canonical.toList
    rw [passes, List.length_append, String.length_toList, scanFrom] at total
    exact Nat.le_of_add_le_add_right total
  rcases Grammar.reading_of_program tokens _ (.program nodes) limit ⟨nodes, derived, rfl⟩
      (rfl : Cursor.headKind (scanFrom 0 (Place.start.after _) []) = .eof) with
    ⟨reading, result, ⟨quiet, tree⟩ | ⟨scarce, broken⟩⟩
  · refine ⟨reading, ?_, .inl ⟨quiet, ?_⟩⟩
    · rw [Grammar.read, scan, passes]
      exact result
    · rw [tree, Node.bare, Node.bare, same]
  · refine ⟨reading, ?_, .inr ⟨?_, broken⟩⟩
    · rw [Grammar.read, scan, passes]
      exact result
    · omega

theorem statement_of_bare (nodes : List Node) (tree : Node) (line : Int)
    (same : Node.bareAll nodes = Node.bareAll [.statement tree line]) :
    ∃ node place, nodes = [.statement node place] ∧ node.bare = tree.bare := by
  cases nodes with
  | nil => cases same
  | cons first rest =>
      rcases List.cons.inj same with ⟨head, tail⟩
      cases rest with
      | cons second others => cases tail
      | nil =>
          cases first with
          | statement node place => exact ⟨node, place, rfl, (Node.statement.inj head).1⟩
          | conditional condition consequence alternative place =>
              cases alternative <;> cases head
          | _ => cases head

/-- Reading inverts printing: the canonical text of a plain expression is read as one statement that
holds the same expression, and that of a plain program as the same program, whose canonical text is
the text that was read. -/
theorem canonical_read_back :
    (∀ tree : Node, tree.plain = true → ∀ limit, ∃ reading,
      Grammar.read limit tree.canonical = .ok reading ∧
        ((reading.diagnostics = [] ∧ ∃ node line, reading.statements = [.statement node line] ∧
            node.bare = tree.bare) ∨
          (limit < 9 * tree.canonical.length + 9 ∧ reading.BrokenOff))) ∧
    ∀ statements : List Node, Node.plainStatements statements = true → ∀ limit, ∃ reading,
      Grammar.read limit (Node.program statements).canonical = .ok reading ∧
        ((reading.diagnostics = [] ∧ reading.program.bare = (Node.program statements).bare ∧
            reading.program.canonical = (Node.program statements).canonical) ∨
          (limit < 9 * (Node.program statements).canonical.length + 9 ∧ reading.BrokenOff)) := by
  constructor
  · intro tree plain limit
    have text : (Node.program [.statement tree 0]).canonical = tree.canonical := by
      simp [Node.canonical, Node.canonicals]
    have back := program_read_back [.statement tree 0] plain limit
    rw [text] at back
    rcases back with ⟨reading, result, ⟨quiet, same⟩ | broken⟩
    · have shape := statement_of_bare reading.statements tree 0 (Node.program.inj same)
      exact ⟨reading, result, .inl ⟨quiet, shape⟩⟩
    · exact ⟨reading, result, .inr broken⟩
  · intro statements plain limit
    rcases program_read_back statements plain limit with ⟨reading, result, ⟨quiet, same⟩ | broken⟩
    · exact ⟨reading, result, .inl ⟨quiet, same, Node.canonical_of_bare _ _ same⟩⟩
    · exact ⟨reading, result, .inr broken⟩

/-- A call that is indexed, and a program that binds it. -/
theorem indexed_call_read_back :
    (∃ reading, Grammar.read 1000 "(f([1, \"a b\"])[(-y)])" = .ok reading ∧
      reading.diagnostics = [] ∧ ∃ node line, reading.statements = [.statement node line] ∧
        node.bare = .index (.call (.identifier ⟨"f", 0, 0⟩)
          [.array [.integer 1 0, .string "a b" 0] 0] 0) (.unary .sub (.identifier ⟨"y", 0, 0⟩) 0) 0) ∧
    ∃ reading, Grammar.read 1000 "let x = (!y);(x == \x7bk: 2\x7d)" = .ok reading ∧
      reading.diagnostics = [] ∧ reading.program.bare = .program
        [.binding ⟨"x", 0, 0⟩ (.unary .not (.identifier ⟨"y", 0, 0⟩) 0) 0,
          .statement (.binary (.identifier ⟨"x", 0, 0⟩) .eq
            (.map [(.identifier ⟨"k", 0, 0⟩, .integer 2 0)] 0) 0) 0] ∧
      reading.program.canonical = "let x = (!y);(x == \x7bk: 2\x7d)" := by
  constructor
  · rcases canonical_read_back.1 (.index (.call (.identifier ⟨"f", 0, 0⟩)
        [.array [.integer 1 0, .string "a b" 0] 0] 0) (.unary .sub (.identifier ⟨"y", 0, 0⟩) 0) 0)
      (by decide) 1000 with ⟨reading, result, ⟨quiet, same⟩ | ⟨scarce, -⟩⟩
    · exact ⟨reading, result, quiet, same⟩
    · exact absurd scarce (by decide)
  · rcases canonical_read_back.2
        [.binding ⟨"x", 0, 0⟩ (.unary .not (.identifier ⟨"y", 0, 0⟩) 0) 0,
          .statement (.binary (.identifier ⟨"x", 0, 0⟩) .eq
            (.map [(.identifier ⟨"k", 0, 0⟩, .integer 2 0)] 0) 0) 0]
      (by decide) 1000 with ⟨reading, result, ⟨quiet, same⟩ | ⟨scarce, -⟩⟩
    · exact ⟨reading, result, quiet, same⟩
    · exact absurd scarce (by decide)

end Marmoset
