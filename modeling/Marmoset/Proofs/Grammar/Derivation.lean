import Marmoset.Grammar.Phrase
import Marmoset.Proofs.Text.Numeral

/-!
The grammar of the language, apart from any way of reading it: which token lists are phrases of
which kind, and the tree of each. Expressions lie in strata, and each stratum is written with the
operators of its own and with the expressions of the next tighter one.
-/

namespace Marmoset.Derivation

/-- The strata of expressions, the loosest first. -/
inductive Stratum
  | equality
  | comparison
  | sum
  | product
  | unary
  | application
  | primary
  deriving DecidableEq, Repr

namespace Stratum

def tighter : Stratum → Stratum
  | equality => comparison
  | comparison => sum
  | sum => product
  | product => unary
  | unary => application
  | application => primary
  | primary => primary

def operator? : Stratum → TokenKind → Option Operator
  | equality, .eq => some .eq
  | equality, .notEq => some .ne
  | comparison, .lt => some .lt
  | comparison, .gt => some .gt
  | sum, .plus => some .add
  | sum, .minus => some .sub
  | product, .asterisk => some .mul
  | product, .slash => some .div
  | _, _ => none

end Stratum

def leading? : TokenKind → Option Operator
  | .bang => some .not
  | .minus => some .sub
  | _ => none

/-- The tokens that go on with an expression when they stand behind it. -/
def continues : TokenKind → Bool
  | .plus | .minus | .slash | .asterisk | .eq | .notEq | .lt | .gt | .lparen | .lbracket => true
  | _ => false

/-- The class of the token behind a phrase, where `rest` and then a token of class `follow` stand. -/
def nextKind (rest : List Token) (follow : TokenKind) : TokenKind :=
  (rest.head?.map Token.kind).getD follow

inductive Parameters : List Token → List Name → Prop
  | none : Parameters [] []
  | last {token : Token} (kind : token.kind = .ident) :
      Parameters [token] [Grammar.nameOf token]
  | more {token comma : Token} {rest : List Token} {name : Name} {names : List Name}
      (kind : token.kind = .ident) (divided : comma.kind = .comma)
      (others : Parameters rest (name :: names)) :
      Parameters (token :: comma :: rest) (Grammar.nameOf token :: name :: names)

mutual

/-- A token list is an expression of a stratum and has a tree. -/
inductive Expression : Stratum → List Token → Node → Prop
  | tighter {stratum : Stratum} {tokens : List Token} {node : Node}
      (inner : Expression stratum.tighter tokens node) : Expression stratum tokens node
  | binary {stratum : Stratum} {before after : List Token} {token : Token} {left right : Node}
      {operator : Operator} (first : Expression stratum before left)
      (sign : stratum.operator? token.kind = some operator)
      (second : Expression stratum.tighter after right) :
      Expression stratum (before ++ token :: after) (.binary left operator right token.line)
  | unary {token : Token} {tokens : List Token} {operator : Operator} {operand : Node}
      (sign : leading? token.kind = some operator) (inner : Expression .unary tokens operand) :
      Expression .unary (token :: tokens) (.unary operator operand token.line)
  | call {before tokens : List Token} {first last : Token} {callee : Node} {arguments : List Node}
      (called : Expression .application before callee) (opened : first.kind = .lparen)
      (listed : Listing tokens arguments) (closed : last.kind = .rparen) :
      Expression .application (before ++ first :: (tokens ++ [last]))
        (.call callee arguments first.line)
  | index {before tokens : List Token} {first last : Token} {container position : Node}
      (indexed : Expression .application before container) (opened : first.kind = .lbracket)
      (inner : Expression .equality tokens position) (closed : last.kind = .rbracket) :
      Expression .application (before ++ first :: (tokens ++ [last]))
        (.index container position first.line)
  | identifier {token : Token} (kind : token.kind = .ident) :
      Expression .primary [token] (.identifier (Grammar.nameOf token))
  | integer {token : Token} {value : Nat} (kind : token.kind = .int)
      (written : Text.Numeral token.literal value) (small : value ≤ 0x7fffffffffffffff) :
      Expression .primary [token] (.integer value token.line)
  | string {token : Token} (kind : token.kind = .string) :
      Expression .primary [token] (.string token.literal token.line)
  | truth {token : Token} (kind : token.kind = .trueWord) :
      Expression .primary [token] (.boolean true token.line)
  | falsehood {token : Token} (kind : token.kind = .falseWord) :
      Expression .primary [token] (.boolean false token.line)
  | group {first last : Token} {tokens : List Token} {node : Node}
      (opened : first.kind = .lparen) (inner : Expression .equality tokens node)
      (closed : last.kind = .rparen) : Expression .primary (first :: (tokens ++ [last])) node
  | conditional {word first last : Token} {test body : List Token} {condition consequence : Node}
      (kind : word.kind = .ifWord) (opened : first.kind = .lparen)
      (tested : Expression .equality test condition) (closed : last.kind = .rparen)
      (chosen : Block body consequence) :
      Expression .primary (word :: first :: (test ++ last :: body))
        (.conditional condition consequence none word.line)
  | alternative {word first last otherwise : Token} {test body other : List Token}
      {condition consequence alternative : Node}
      (kind : word.kind = .ifWord) (opened : first.kind = .lparen)
      (tested : Expression .equality test condition) (closed : last.kind = .rparen)
      (chosen : Block body consequence) (kept : otherwise.kind = .elseWord)
      (rejected : Block other alternative) :
      Expression .primary (word :: first :: (test ++ last :: (body ++ otherwise :: other)))
        (.conditional condition consequence (some alternative) word.line)
  | function {word first last : Token} {listed body : List Token} {names : List Name} {block : Node}
      (kind : word.kind = .fnWord) (opened : first.kind = .lparen)
      (parameters : Parameters listed names) (closed : last.kind = .rparen)
      (inner : Block body block) :
      Expression .primary (word :: first :: (listed ++ last :: body))
        (.function names block word.line)
  | array {first last : Token} {tokens : List Token} {elements : List Node}
      (opened : first.kind = .lbracket) (listed : Listing tokens elements)
      (closed : last.kind = .rbracket) :
      Expression .primary (first :: (tokens ++ [last])) (.array elements first.line)
  | map {first last : Token} {tokens : List Token} {pairs : List (Node × Node)}
      (opened : first.kind = .lbrace) (listed : Pairs tokens pairs)
      (closed : last.kind = .rbrace) :
      Expression .primary (first :: (tokens ++ [last])) (.map pairs first.line)

/-- Expressions divided by commas, or none at all; no comma stands behind the last. -/
inductive Listing : List Token → List Node → Prop
  | none : Listing [] []
  | last {tokens : List Token} {node : Node} (item : Expression .equality tokens node) :
      Listing tokens [node]
  | more {tokens rest : List Token} {comma : Token} {node next : Node} {nodes : List Node}
      (item : Expression .equality tokens node) (divided : comma.kind = .comma)
      (others : Listing rest (next :: nodes)) :
      Listing (tokens ++ comma :: rest) (node :: next :: nodes)

/-- Pairs of a key and a value, divided by commas; a comma may stand behind the last. -/
inductive Pairs : List Token → List (Node × Node) → Prop
  | none : Pairs [] []
  | last {before after : List Token} {colon : Token} {key value : Node}
      (first : Expression .equality before key) (divided : colon.kind = .colon)
      (second : Expression .equality after value) :
      Pairs (before ++ colon :: after) [(key, value)]
  | more {before after rest : List Token} {colon comma : Token} {key value : Node}
      {pairs : List (Node × Node)}
      (first : Expression .equality before key) (divided : colon.kind = .colon)
      (second : Expression .equality after value) (ended : comma.kind = .comma)
      (others : Pairs rest pairs) :
      Pairs (before ++ colon :: (after ++ comma :: rest)) ((key, value) :: pairs)

inductive Block : List Token → Node → Prop
  | braces {first last : Token} {tokens : List Token} {nodes : List Node}
      (opened : first.kind = .lbrace) (inner : Statements .rbrace tokens nodes)
      (closed : last.kind = .rbrace) :
      Block (first :: (tokens ++ [last])) (.block nodes first.line)

/-- A statement without the semicolon behind it. -/
inductive Sentence : List Token → Node → Prop
  | binding {word name sign : Token} {tokens : List Token} {value : Node}
      (kind : word.kind = .letWord) (named : name.kind = .ident) (assigned : sign.kind = .assign)
      (inner : Expression .equality tokens value) :
      Sentence (word :: name :: sign :: tokens) (.binding (Grammar.nameOf name) value word.line)
  | returning {word : Token} {tokens : List Token} {value : Node}
      (kind : word.kind = .returnWord) (inner : Expression .equality tokens value) :
      Sentence (word :: tokens) (.returning value word.line)
  | bare {token : Token} {tokens : List Token} {node : Node}
      (inner : Expression .equality (token :: tokens) node) :
      Sentence (token :: tokens) (.statement node token.line)

/-- Statements up to a token of class `follow`. A statement ends in a semicolon, or the next token
is none that would go on with its expression. -/
inductive Statements : TokenKind → List Token → List Node → Prop
  | none {follow : TokenKind} : Statements follow [] []
  | ended {follow : TokenKind} {tokens rest : List Token} {semicolon : Token} {node : Node}
      {nodes : List Node} (sentence : Sentence tokens node) (kind : semicolon.kind = .semicolon)
      (others : Statements follow rest nodes) :
      Statements follow (tokens ++ semicolon :: rest) (node :: nodes)
  | unended {follow : TokenKind} {tokens rest : List Token} {node : Node} {nodes : List Node}
      (sentence : Sentence tokens node) (stops : continues (nextKind rest follow) = false)
      (others : Statements follow rest nodes) :
      Statements follow (tokens ++ rest) (node :: nodes)

end

/-- A whole token list, without the token that marks its end, and its program. -/
def Program (tokens : List Token) (program : Node) : Prop :=
  ∃ nodes, Statements .eof tokens nodes ∧ program = .program nodes

def Stratum.rank : Stratum → Nat
  | equality => 0
  | comparison => 1
  | sum => 2
  | product => 3
  | unary => 4
  | application => 5
  | primary => 6

theorem Stratum.rank_injective (first second : Stratum) (same : first.rank = second.rank) :
    first = second := by
  cases first <;> cases second <;> first | rfl | cases same

theorem Stratum.rank_tighter (stratum : Stratum) (below : stratum.rank < 6) :
    stratum.tighter.rank = stratum.rank + 1 := by
  cases stratum <;> first | rfl | exact absurd below (by decide)

theorem Expression.loosen {tight : Stratum} {tokens : List Token} {node : Node}
    (derived : Expression tight tokens node) (loose : Stratum) (order : loose.rank ≤ tight.rank) :
    Expression loose tokens node := by
  have top : tight.rank ≤ 6 := by cases tight <;> decide
  generalize gap : tight.rank - loose.rank = steps
  induction steps generalizing loose with
  | zero =>
      have same : tight = loose := tight.rank_injective loose (by omega)
      exact same ▸ derived
  | succ steps ih =>
      have next := loose.rank_tighter (by omega)
      exact .tighter (ih loose.tighter (by omega) (by omega))

theorem Expression.loosest {tight : Stratum} {tokens : List Token} {node : Node}
    (derived : Expression tight tokens node) : Expression .equality tokens node :=
  derived.loosen .equality (Nat.zero_le _)

def beginsExpression : TokenKind → Bool
  | .ident | .int | .string | .trueWord | .falseWord | .bang | .minus | .lparen | .ifWord | .fnWord
  | .lbracket | .lbrace => true
  | _ => false

def beginsStatement : TokenKind → Bool
  | .letWord | .returnWord => true
  | kind => beginsExpression kind

theorem beginsStatement_of_expression (kind : TokenKind) (begins : beginsExpression kind = true) :
    beginsStatement kind = true ∧ kind ≠ .letWord ∧ kind ≠ .returnWord := by
  cases kind <;> simp [beginsExpression, beginsStatement] at begins ⊢

theorem begins_plain (kind : TokenKind) (begins : beginsStatement kind = true) :
    kind ≠ .elseWord ∧ kind ≠ .semicolon ∧ kind ≠ .rbrace ∧ kind ≠ .rparen ∧ kind ≠ .rbracket ∧
      kind ≠ .eof := by
  cases kind <;> simp [beginsStatement, beginsExpression] at begins ⊢

theorem leading?_begins (kind : TokenKind) (operator : Operator)
    (sign : leading? kind = some operator) : beginsExpression kind = true := by
  cases kind <;> simp [leading?] at sign <;> rfl

theorem Expression.start {stratum : Stratum} {tokens : List Token} {node : Node} :
    Expression stratum tokens node →
      ∃ token rest, tokens = token :: rest ∧ beginsExpression token.kind = true
  | .tighter inner => inner.start
  | .binary first _ _ => by
      rcases first.start with ⟨token, rest, rfl, kind⟩
      exact ⟨token, _, rfl, kind⟩
  | .unary sign _ => ⟨_, _, rfl, leading?_begins _ _ sign⟩
  | .call called _ _ _ => by
      rcases called.start with ⟨token, rest, rfl, kind⟩
      exact ⟨token, _, rfl, kind⟩
  | .index indexed _ _ _ => by
      rcases indexed.start with ⟨token, rest, rfl, kind⟩
      exact ⟨token, _, rfl, kind⟩
  | .identifier kind => ⟨_, _, rfl, by rw [kind]; rfl⟩
  | .integer kind _ _ => ⟨_, _, rfl, by rw [kind]; rfl⟩
  | .string kind => ⟨_, _, rfl, by rw [kind]; rfl⟩
  | .truth kind => ⟨_, _, rfl, by rw [kind]; rfl⟩
  | .falsehood kind => ⟨_, _, rfl, by rw [kind]; rfl⟩
  | .group opened _ _ => ⟨_, _, rfl, by rw [opened]; rfl⟩
  | .conditional kind _ _ _ _ => ⟨_, _, rfl, by rw [kind]; rfl⟩
  | .alternative kind _ _ _ _ _ _ => ⟨_, _, rfl, by rw [kind]; rfl⟩
  | .function kind _ _ _ _ => ⟨_, _, rfl, by rw [kind]; rfl⟩
  | .array opened _ _ => ⟨_, _, rfl, by rw [opened]; rfl⟩
  | .map opened _ _ => ⟨_, _, rfl, by rw [opened]; rfl⟩

theorem Expression.length_pos {stratum : Stratum} {tokens : List Token} {node : Node}
    (derived : Expression stratum tokens node) : 0 < tokens.length := by
  rcases derived.start with ⟨token, rest, rfl, -⟩
  exact Nat.succ_pos _

theorem Listing.start {tokens : List Token} {nodes : List Node} (listing : Listing tokens nodes) :
    (tokens = [] ∧ nodes = []) ∨ (nodes ≠ [] ∧
      ∃ token rest, tokens = token :: rest ∧ beginsExpression token.kind = true) := by
  cases listing with
  | none => exact .inl ⟨rfl, rfl⟩
  | last item => exact .inr ⟨List.cons_ne_nil _ _, item.start⟩
  | more item divided others =>
      rcases item.start with ⟨token, rest, rfl, begins⟩
      exact .inr ⟨List.cons_ne_nil _ _, token, _, rfl, begins⟩

theorem Block.start {tokens : List Token} {node : Node} (block : Block tokens node) :
    ∃ token rest, tokens = token :: rest ∧ token.kind = .lbrace := by
  cases block with
  | braces opened inner closed => exact ⟨_, _, rfl, opened⟩

theorem Sentence.start {tokens : List Token} {node : Node} (sentence : Sentence tokens node) :
    ∃ token rest, tokens = token :: rest ∧ beginsStatement token.kind = true := by
  cases sentence with
  | binding kind named assigned inner => exact ⟨_, _, rfl, by rw [kind]; rfl⟩
  | returning kind inner => exact ⟨_, _, rfl, by rw [kind]; rfl⟩
  | bare inner =>
      rcases inner.start with ⟨token, rest, shape, begins⟩
      exact ⟨token, rest, shape, (beginsStatement_of_expression token.kind begins).1⟩

theorem Statements.start {follow : TokenKind} {tokens : List Token} {nodes : List Node}
    (statements : Statements follow tokens nodes) :
    tokens = [] ∨ ∃ token rest, tokens = token :: rest ∧ beginsStatement token.kind = true := by
  cases statements with
  | none => exact .inl rfl
  | ended sentence kind others =>
      rcases sentence.start with ⟨token, rest, rfl, kind⟩
      exact .inr ⟨token, _, rfl, kind⟩
  | unended sentence stops others =>
      rcases sentence.start with ⟨token, rest, rfl, kind⟩
      exact .inr ⟨token, _, rfl, kind⟩

def Endless (tokens : List Token) : Prop := ∀ token ∈ tokens, token.kind ≠ .eof

theorem Endless.nil : Endless [] := fun _ member => absurd member List.not_mem_nil

theorem Endless.cons {token : Token} {tokens : List Token} {kind : TokenKind}
    (first : token.kind = kind) (inside : kind ≠ .eof) (rest : Endless tokens) :
    Endless (token :: tokens) :=
  List.forall_mem_cons.mpr ⟨first ▸ inside, rest⟩

theorem Endless.append {first second : List Token} (before : Endless first)
    (behind : Endless second) : Endless (first ++ second) :=
  List.forall_mem_append.mpr ⟨before, behind⟩

theorem Parameters.endless {tokens : List Token} {names : List Name}
    (derived : Parameters tokens names) : Endless tokens := by
  induction derived with
  | none => exact .nil
  | last kind => exact .cons kind (by decide) .nil
  | more kind divided _ ih => exact .cons kind (by decide) (.cons divided (by decide) ih)

mutual

theorem Expression.endless {stratum : Stratum} {tokens : List Token} {node : Node} :
    Expression stratum tokens node → Endless tokens
  | .tighter inner => inner.endless
  | .binary first sign second => first.endless.append
      (.cons rfl (by rintro ended; rw [ended] at sign; cases stratum <;> cases sign) second.endless)
  | .unary sign inner =>
      .cons rfl (by rintro ended; rw [ended] at sign; cases sign) inner.endless
  | .call called opened listed closed => called.endless.append
      (.cons opened (by decide) (listed.endless.append (.cons closed (by decide) .nil)))
  | .index indexed opened inner closed => indexed.endless.append
      (.cons opened (by decide) (inner.endless.append (.cons closed (by decide) .nil)))
  | .identifier kind => .cons kind (by decide) .nil
  | .integer kind _ _ => .cons kind (by decide) .nil
  | .string kind => .cons kind (by decide) .nil
  | .truth kind => .cons kind (by decide) .nil
  | .falsehood kind => .cons kind (by decide) .nil
  | .group opened inner closed =>
      .cons opened (by decide) (inner.endless.append (.cons closed (by decide) .nil))
  | .conditional kind opened tested closed chosen =>
      .cons kind (by decide) (.cons opened (by decide) (tested.endless.append
        (.cons closed (by decide) chosen.endless)))
  | .alternative kind opened tested closed chosen kept rejected =>
      .cons kind (by decide) (.cons opened (by decide) (tested.endless.append
        (.cons closed (by decide) (chosen.endless.append
          (.cons kept (by decide) rejected.endless)))))
  | .function kind opened parameters closed inner =>
      .cons kind (by decide) (.cons opened (by decide) (parameters.endless.append
        (.cons closed (by decide) inner.endless)))
  | .array opened listed closed =>
      .cons opened (by decide) (listed.endless.append (.cons closed (by decide) .nil))
  | .map opened listed closed =>
      .cons opened (by decide) (listed.endless.append (.cons closed (by decide) .nil))

theorem Listing.endless {tokens : List Token} {nodes : List Node} :
    Listing tokens nodes → Endless tokens
  | .none => .nil
  | .last item => item.endless
  | .more item divided others => item.endless.append (.cons divided (by decide) others.endless)

theorem Pairs.endless {tokens : List Token} {pairs : List (Node × Node)} :
    Pairs tokens pairs → Endless tokens
  | .none => .nil
  | .last first divided second => first.endless.append (.cons divided (by decide) second.endless)
  | .more first divided second ended others => first.endless.append (.cons divided (by decide)
      (second.endless.append (.cons ended (by decide) others.endless)))

theorem Block.endless {tokens : List Token} {node : Node} : Block tokens node → Endless tokens
  | .braces opened inner closed =>
      .cons opened (by decide) (inner.endless.append (.cons closed (by decide) .nil))

theorem Sentence.endless {tokens : List Token} {node : Node} :
    Sentence tokens node → Endless tokens
  | .binding kind named assigned inner =>
      .cons kind (by decide) (.cons named (by decide) (.cons assigned (by decide) inner.endless))
  | .returning kind inner => .cons kind (by decide) inner.endless
  | .bare inner => inner.endless

theorem Statements.endless {follow : TokenKind} {tokens : List Token} {nodes : List Node} :
    Statements follow tokens nodes → Endless tokens
  | .none => .nil
  | .ended sentence kind others => sentence.endless.append (.cons kind (by decide) others.endless)
  | .unended sentence _ others => sentence.endless.append others.endless

end

end Marmoset.Derivation
