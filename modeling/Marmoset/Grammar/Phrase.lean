import Marmoset.Grammar.Production
import Marmoset.Tree

/-!
The phrases of the language. Every production takes the reader of nested expressions as an argument
and `bound`, which no loop over the tokens exceeds; `expression` ties the knot. A nested expression is
read further up the stack by the calls that lie between: three in parentheses and behind an operator,
five in a list, nine in a block.
-/

namespace Marmoset.Grammar

open Production

def integerMax : Int := 0x7fffffffffffffff

def nameOf (token : Token) : Name := ⟨token.literal, token.line, token.column⟩

def integer (frames : Nat) (token : Token) : Production Node :=
  match Text.readInteger token.literal with
  | .error error => abandon error
  | .ok value =>
    if value > integerMax then fail frames (.integerTooLarge token.literal) token.line
    else pure (.integer value token.line)

def moreParameters (frames : Nat) : Nat → Production (List Name)
  | 0 => exhaust
  | fuel + 1 => do
    if (← peek).kind = .comma then
      advance
      expect frames .ident
      let name := nameOf (← current)
      let names ← moreParameters frames fuel
      pure (name :: names)
    else
      expect frames .rparen
      pure []

def parameters (bound frames : Nat) : Production (List Name) := do
  room 1 frames
  if (← peek).kind = .rparen then
    advance
    pure []
  else
    expect frames .ident
    let name := nameOf (← current)
    let names ← moreParameters frames bound
    pure (name :: names)

section Nested

variable (bound : Nat) (nested : Nat → Power → Production Node) (frames : Nat)

def items (close : TokenKind) : Nat → Production (List Node)
  | 0 => exhaust
  | fuel + 1 => do
    let item ← nested frames .lowest
    if (← peek).kind = .comma then
      advance
      advance
      let rest ← items close fuel
      pure (item :: rest)
    else
      expect frames close
      pure [item]

def expressions (close : TokenKind) : Production (List Node) := do
  room 1 frames
  if (← peek).kind = close then
    advance
    pure []
  else
    advance
    items nested frames close bound

/-- The pairs of a map, up to the closing brace; a comma may stand before it. -/
def pairs : Nat → Production (List (Node × Node))
  | 0 => exhaust
  | fuel + 1 => do
    if (← peek).kind = .rbrace then
      expect frames .rbrace
      pure []
    else
      advance
      let key ← nested frames .lowest
      expect frames .colon
      advance
      let value ← nested frames .lowest
      if (← peek).kind = .rbrace then pure () else expect frames .comma
      let rest ← pairs fuel
      pure ((key, value) :: rest)

def binding : Production Node := do
  let line := (← current).line
  expect frames .ident
  let name := nameOf (← current)
  expect frames .assign
  advance
  let value ← nested frames .lowest
  accept .semicolon
  pure (.binding name value line)

def returning : Production Node := do
  room 1 frames
  let line := (← current).line
  advance
  let value ← nested frames .lowest
  accept .semicolon
  pure (.returning value line)

def bareExpression : Production Node := do
  let line := (← current).line
  let expression ← nested frames .lowest
  accept .semicolon
  pure (.statement expression line)

/-- Four calls lie between a loop over statements and what reads one of them. -/
def statement : Production Node :=
  above 4 frames fun frames => do
    match (← current).kind with
    | .letWord => binding nested frames
    | .returnWord => returning nested frames
    | _ => bareExpression nested frames

/-- The statements of a block that was entered at a depth of braces, up to its closing brace. A
statement that fails on that brace ends the block; behind any other failure the block goes on with
the next statement. -/
def blockStatements (depth : Int) : Nat → Production (List Node)
  | 0 => exhaust
  | fuel + 1 => fun cursor =>
    if cursor.current.kind = .rbrace then .read [] cursor
    else if cursor.current.kind = .eof then
      fail frames (.expected .rbrace .eof) cursor.current.line cursor
    else
      match statement nested frames cursor with
      | .read first cursor =>
        (blockStatements depth fuel cursor.advance).bind fun rest => pure (first :: rest)
      | .failed cursor =>
        if cursor.current.kind = .rbrace ∧ cursor.depth < depth then .read [] cursor
        else blockStatements depth fuel cursor.resume.advance
      | .tooDeep cursor => .tooDeep cursor
      | .abandoned error => .abandoned error

theorem blockStatements_succ (depth : Int) (fuel : Nat)
    (cursor : Cursor) : blockStatements nested frames depth (fuel + 1) cursor =
      if cursor.current.kind = .rbrace then .read [] cursor
      else if cursor.current.kind = .eof then
        fail frames (.expected .rbrace .eof) cursor.current.line cursor
      else
        match statement nested frames cursor with
        | .read first cursor =>
          (blockStatements nested frames depth fuel cursor.advance).bind fun rest =>
            pure (first :: rest)
        | .failed cursor =>
          if cursor.current.kind = .rbrace ∧ cursor.depth < depth then .read [] cursor
          else blockStatements nested frames depth fuel cursor.resume.advance
        | .tooDeep cursor => .tooDeep cursor
        | .abandoned error => .abandoned error := rfl

def blockBody : Production Node := fun cursor =>
  (blockStatements nested frames cursor.depth bound cursor.advance).bind fun statements =>
    pure (.block statements cursor.current.line)

def block : Production Node :=
  above 2 frames fun frames => do
    room 1 frames
    blockBody bound nested frames

def unary (operator : Operator) : Production Node := do
  let line := (← current).line
  advance
  let operand ← nested frames .unary
  pure (.unary operator operand line)

def group : Production Node := do
  advance
  let node ← nested frames .lowest
  expect frames .rparen
  pure node

def alternative : Production (Option Node) := do
  if (← peek).kind = .elseWord then
    advance
    expect frames .lbrace
    let node ← block bound nested frames
    pure (some node)
  else pure none

def conditional : Production Node := do
  let line := (← current).line
  expect frames .lparen
  advance
  let condition ← nested frames .lowest
  expect frames .rparen
  expect frames .lbrace
  let consequence ← block bound nested frames
  let alternative ← alternative bound nested frames
  pure (.conditional condition consequence alternative line)

def function : Production Node := do
  let line := (← current).line
  expect frames .lparen
  let names ← above 1 frames fun frames => parameters bound frames
  expect frames .lbrace
  let body ← block bound nested frames
  pure (.function names body line)

def array : Production Node := do
  let line := (← current).line
  let elements ← above 2 frames fun frames => expressions bound nested frames .rbracket
  pure (.array elements line)

def map : Production Node := do
  let line := (← current).line
  let pairs ← pairs nested frames bound
  pure (.map pairs line)

def operand : Production Node := do
  let token ← current
  match token.kind with
  | .ident => pure (.identifier (nameOf token))
  | .int => integer frames token
  | .string => pure (.string token.literal token.line)
  | .trueWord => pure (.boolean true token.line)
  | .falseWord => pure (.boolean false token.line)
  | .bang => unary nested frames .not
  | .minus => unary nested frames .sub
  | .lparen => group nested frames
  | .ifWord => conditional bound nested frames
  | .fnWord => function bound nested frames
  | .lbracket => array bound nested frames
  | .lbrace => map bound nested frames
  | kind => fail (frames + 1) (.noOperand kind) token.line

def continuation (left : Node) : Production Node := do
  let token ← current
  match token.kind with
  | .lparen =>
    let arguments ← above 2 frames fun frames => expressions bound nested frames .rparen
    pure (.call left arguments token.line)
  | .lbracket =>
    advance
    let position ← nested frames .lowest
    expect frames .rbracket
    pure (.index left position token.line)
  | kind =>
    match kind.binary? with
    | some operator =>
      advance
      let right ← nested frames kind.power
      pure (.binary left operator right token.line)
    | none => pure left

/-- Extends an expression for as long as the next token binds tighter than `power`. -/
def extend (power : Power) : Nat → Node → Production Node
  | 0, _ => exhaust
  | fuel + 1, left => do
    if power < (← peek).kind.power then
      advance
      let left ← continuation bound nested frames left
      extend power fuel left
    else pure left

end Nested

/-- An expression that binds tighter than the power given, read with `frames` left of at most `limit`.
Three calls lead to what reads its operand or goes on with it, and one more makes a node. -/
def expression (bound : Nat) : Nat → Nat → Power → Production Node
  | 0, _, _ => exhaust
  | limit + 1, frames, power =>
    if frames ≤ limit then expression bound limit frames power
    else above 3 frames fun frames => do
      room 1 frames
      let left ← operand bound (expression bound limit) frames
      extend bound (expression bound limit) frames power bound left

theorem expression_of_limit (bound limit frames : Nat) (within : frames ≤ limit) :
    expression bound limit frames = expression bound frames frames := by
  induction limit with
  | zero => rw [Nat.le_zero.mp within]
  | succ limit ih =>
      by_cases below : frames ≤ limit
      · rw [← ih below]
        funext power
        rw [expression, if_pos below]
      · rw [Nat.le_antisymm within (Nat.lt_of_not_le below)]

theorem expression_frames (bound frames : Nat) (power : Power) :
    expression bound (frames + 1) (frames + 1) power =
      above 3 (frames + 1) (fun left => do
        room 1 left
        let first ← operand bound (expression bound frames) left
        extend bound (expression bound frames) left power bound first) := by
  rw [expression, if_neg (Nat.not_succ_le_self frames)]

end Marmoset.Grammar
