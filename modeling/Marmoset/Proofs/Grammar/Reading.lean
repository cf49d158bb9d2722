import Marmoset.Proofs.Grammar.Cursor

/-!
Every phrase of the grammar is read, whole and with its own tree. An expression that begins a longer
one is left to the loop that goes on with it, so the statement about expressions says where that loop
stands behind them; what it says about reading an expression whole follows.
-/

namespace Marmoset.Grammar

open Marmoset.Derivation Production

def Quiet (power : Power) (kind : TokenKind) : Prop := kind ≠ .elseWord ∧ kind.power ≤ power

theorem Quiet.mono {low high : Power} {kind : TokenKind} (quiet : Quiet low kind)
    (bound : low ≤ high) : Quiet high kind :=
  ⟨quiet.1, Nat.le_trans quiet.2 bound⟩

theorem operator?_quiet (stratum : Stratum) (kind : TokenKind) (operator : Operator)
    (sign : stratum.operator? kind = some operator) : Quiet stratum.ceiling kind := by
  refine ⟨?_, Nat.le_of_eq (stratum.operator?_power kind operator sign).2.1⟩
  rintro rfl
  cases stratum <;> cases sign

theorem not_continues (kind : TokenKind) (stops : continues kind = false) :
    kind.power ≤ Power.lowest := by
  cases kind <;> simp [continues] at stops <;> exact Nat.le_refl _

section Loop

variable (bound : Nat) (nested : Nat → Power → Production Node) (frames : Nat)

theorem extend_stop (power : Power) (fuel : Nat) (left : Node) (cursor : Cursor)
    (loose : cursor.peek.kind.power ≤ power) :
    extend bound nested frames power (fuel + 1) left cursor = .read left cursor := by
  simp only [extend, bind_apply, peek_apply, Outcome.read_bind, choice_apply,
    if_neg (Nat.not_lt.mpr loose), pure_apply]

theorem extend_step (power : Power) (fuel : Nat) (left : Node) (cursor : Cursor)
    (tight : power < cursor.peek.kind.power) :
    extend bound nested frames power (fuel + 1) left cursor =
      (continuation bound nested frames left cursor.advance).bind
        (extend bound nested frames power fuel) := by
  simp only [extend, bind_apply, peek_apply, Outcome.read_bind, choice_apply, if_pos tight,
    advance_apply]

theorem continuation_binary (left : Node) (cursor : Cursor) (stratum : Stratum)
    (operator : Operator) (sign : stratum.operator? cursor.current.kind = some operator) :
    continuation bound nested frames left cursor =
      (nested frames cursor.current.kind.power cursor.advance).bind fun right =>
        pure (.binary left operator right cursor.current.line) := by
  have binary := (stratum.operator?_power _ operator sign).2.2.2
  revert binary
  simp only [continuation, bind_apply, current_apply, Outcome.read_bind]
  cases cursor.current.kind <;> intro binary <;> cases binary <;> rfl

theorem continuation_call (left : Node) (cursor : Cursor) (kind : cursor.current.kind = .lparen) :
    continuation bound nested frames left cursor =
      (above 2 frames (fun frames => expressions bound nested frames .rparen) cursor).bind
        fun arguments => pure (.call left arguments cursor.current.line) := by
  simp only [continuation, bind_apply, current_apply, Outcome.read_bind, kind]

theorem continuation_index (left : Node) (cursor : Cursor) (kind : cursor.current.kind = .lbracket) :
    continuation bound nested frames left cursor =
      (nested frames .lowest cursor.advance).bind fun position =>
        expect frames .rbracket >>= fun _ => pure (.index left position cursor.current.line) := by
  simp only [continuation, bind_apply, current_apply, Outcome.read_bind, kind, advance_apply]

end Loop

section Reads

variable (bound : Nat)

def ReadsExpression (stratum : Stratum) (tokens : List Token) (node : Node) : Prop :=
  ∀ (limit frames : Nat) (power : Power) (cursor : Cursor) (rest : List Token),
    cursor.tokens = tokens ++ rest → tokens.length ≤ bound → frames ≤ limit →
    9 * tokens.length + 3 ≤ frames → power < stratum.floor → Quiet power (Cursor.headKind rest) →
    ∃ after, expression bound limit frames power cursor = .read node after ∧ cursor.Stops after rest

/-- Behind an expression of a stratum, whatever the loop goes on with, it goes on from the tree of
the expression; it has taken no more steps than the expression has tokens. -/
def ExtendsTo (stratum : Stratum) (tokens : List Token) (node : Node) : Prop :=
  ∀ (limit frames : Nat) (power : Power) (cursor : Cursor) (rest : List Token),
    cursor.tokens = tokens ++ rest → tokens.length ≤ bound → frames ≤ limit →
    9 * tokens.length ≤ frames → power < stratum.floor →
    Quiet stratum.ceiling (Cursor.headKind rest) →
    ∃ after steps, cursor.Stops after rest ∧ steps < tokens.length ∧ ∀ fuel,
      (operand bound (expression bound limit) frames cursor).bind
          (extend bound (expression bound limit) frames power (steps + fuel)) =
        extend bound (expression bound limit) frames power fuel node after

def ReadsOperand (stratum : Stratum) (tokens : List Token) (node : Node) : Prop :=
  ∀ (limit frames : Nat) (cursor : Cursor) (rest : List Token),
    cursor.tokens = tokens ++ rest → tokens.length ≤ bound → frames ≤ limit →
    9 * tokens.length ≤ frames → Quiet stratum.ceiling (Cursor.headKind rest) →
    ∃ after, operand bound (expression bound limit) frames cursor = .read node after ∧
      cursor.Stops after rest

def ReadsItems (tokens : List Token) (nodes : List Node) : Prop :=
  ∀ (limit frames fuel : Nat) (close : TokenKind) (cursor : Cursor) (last : Token)
    (rest : List Token),
    cursor.tokens = tokens ++ last :: rest → last.kind = close →
    (close = .rparen ∨ close = .rbracket) → tokens.length ≤ bound → frames ≤ limit →
    9 * tokens.length + 3 ≤ frames → tokens.length ≤ fuel →
    ∃ after, items (expression bound limit) frames close fuel cursor = .read nodes after ∧
      cursor.Stops after rest

def ReadsListing (tokens : List Token) (nodes : List Node) : Prop :=
  ∀ (limit frames : Nat) (close : TokenKind) (cursor : Cursor) (last : Token) (rest : List Token),
    cursor.tokens.tail = tokens ++ last :: rest → last.kind = close →
    (close = .rparen ∨ close = .rbracket) → tokens.length ≤ bound → frames ≤ limit →
    9 * tokens.length + 3 ≤ frames →
    ∃ after, expressions bound (expression bound limit) frames close cursor = .read nodes after ∧
      cursor.Stops after rest

def ReadsPairs (tokens : List Token) (nodes : List (Node × Node)) : Prop :=
  ∀ (limit frames fuel : Nat) (cursor : Cursor) (last : Token) (rest : List Token),
    cursor.tokens.tail = tokens ++ last :: rest → last.kind = .rbrace →
    tokens.length ≤ bound → frames ≤ limit → 9 * tokens.length + 3 ≤ frames →
    tokens.length < fuel →
    ∃ after, pairs (expression bound limit) frames fuel cursor = .read nodes after ∧
      cursor.Stops after rest

def ReadsBlock (tokens : List Token) (node : Node) : Prop :=
  ∀ (limit frames : Nat) (cursor : Cursor) (rest : List Token),
    cursor.tokens = tokens ++ rest → tokens.length ≤ bound → frames ≤ limit →
    9 * tokens.length ≤ frames →
    ∃ after, block bound (expression bound limit) frames cursor = .read node after ∧
      cursor.Stops after rest

def ReadsSentence (tokens : List Token) (node : Node) : Prop :=
  ∀ (limit frames : Nat) (cursor : Cursor) (rest : List Token),
    cursor.tokens = tokens ++ rest → tokens.length ≤ bound → frames ≤ limit →
    9 * tokens.length + 7 ≤ frames → Quiet .lowest (Cursor.headKind rest) →
    ∃ middle, cursor.Stops middle rest ∧
      statement (expression bound limit) frames cursor =
        (accept .semicolon middle).bind fun _ => pure node

end Reads

/-- Statements read one after another without a failure, up to a token where no statement starts. -/
inductive Run (nested : Nat → Power → Production Node) (frames : Nat) :
    Cursor → List Node → Cursor → Prop
  | stop (cursor : Cursor) : Run nested frames cursor [] cursor
  | step {cursor after final : Cursor} {node : Node} {nodes : List Node}
      (begins : beginsStatement cursor.current.kind = true)
      (first : statement nested frames cursor = .read node after)
      (others : Run nested frames after.advance nodes final) :
      Run nested frames cursor (node :: nodes) final

def ReadsStatements (bound : Nat) (follow : TokenKind) (tokens : List Token) (nodes : List Node) :
    Prop :=
  ∀ (limit frames : Nat) (cursor : Cursor) (rest : List Token),
    cursor.tokens = tokens ++ rest → tokens.length ≤ bound → frames ≤ limit →
    9 * tokens.length + 7 ≤ frames → Cursor.headKind rest = follow →
    (follow = .rbrace ∨ follow = .eof) →
    ∃ final, Run (expression bound limit) frames cursor nodes final ∧ final.tokens = rest ∧
      final.diagnostics = cursor.diagnostics ∧ nodes.length ≤ tokens.length

theorem brackets_stream (cursor : Cursor) (first last : Token) (tokens rest : List Token)
    (start : cursor.tokens = (first :: (tokens ++ [last])) ++ rest) :
    cursor.current = first ∧ cursor.tokens.tail = tokens ++ last :: rest := by
  have stream : cursor.tokens = first :: (tokens ++ last :: rest) := by simpa using start
  exact ⟨cursor.current_of_tokens _ _ stream, by rw [stream]; rfl⟩

section Expressions

variable (bound : Nat)

theorem reads_of_extends {stratum : Stratum} {tokens : List Token} {node : Node}
    (extended : ExtendsTo bound stratum tokens node) :
    ReadsExpression bound stratum tokens node := by
  intro limit frames power cursor rest start short within deep below quiet
  have wide := quiet.mono (stratum.lt_floor_le_ceiling power below)
  rw [expression_of_limit bound limit frames within]
  obtain ⟨less, rfl⟩ : ∃ less, frames = less + 1 := ⟨frames - 1, by omega⟩
  rcases extended less (less + 1 - 3) power cursor rest start short (by omega) (by omega) below wide with
    ⟨after, steps, stops, few, loop⟩
  -- the loop has fuel left for one step more, and that step finds nothing to go on with
  obtain ⟨fuel, spare⟩ : ∃ fuel, steps + (fuel + 1) = bound := ⟨bound - steps - 1, by omega⟩
  have whole := loop (fuel + 1)
  rw [spare] at whole
  have loose : after.peek.kind.power ≤ power := by
    rw [after.peek_kind, stops.rest]
    exact quiet.2
  have room : 1 ≤ less + 1 - 3 := by omega
  refine ⟨after, ?_, stops⟩
  calc
    expression bound (less + 1) (less + 1) power cursor =
        (operand bound (expression bound less) (less + 1 - 3) cursor).bind
          (extend bound (expression bound less) (less + 1 - 3) power bound) := by
      rw [expression_frames, above_apply (by omega), bind_apply, room_apply room]
      rfl
    _ = extend bound (expression bound less) (less + 1 - 3) power (fuel + 1) node after := whole
    _ = .read node after := extend_stop bound _ _ power fuel node after loose

theorem extends_of_operand {stratum : Stratum} {token : Token} {tokens : List Token} {node : Node}
    (reads : ReadsOperand bound stratum (token :: tokens) node) :
    ExtendsTo bound stratum (token :: tokens) node := by
  intro limit frames power cursor rest start short within deep below quiet
  rcases reads limit frames cursor rest start short within deep quiet with ⟨after, result, stops⟩
  refine ⟨after, 0, stops, Nat.succ_pos _, fun fuel => ?_⟩
  rw [result, Nat.zero_add]
  rfl

theorem extends_tighter {stratum : Stratum} {tokens : List Token} {node : Node}
    (extended : ExtendsTo bound stratum.tighter tokens node) :
    ExtendsTo bound stratum tokens node := by
  intro limit frames power cursor rest start short within deep below quiet
  exact extended limit frames power cursor rest start short within deep
    (Nat.lt_of_lt_of_le below stratum.floor_tighter) (quiet.mono stratum.ceiling_tighter)

theorem extends_continuation {stratum inner : Stratum} {before after : List Token} {token : Token}
    {left node : Node} (extended : ExtendsTo bound inner before left)
    (between : Quiet inner.ceiling token.kind) (loose : stratum.floor ≤ inner.floor)
    (tight : stratum.floor ≤ token.kind.power)
    (continued : ∀ (limit frames : Nat) (cursor : Cursor) (rest : List Token),
      cursor.tokens = token :: (after ++ rest) → after.length ≤ bound → frames ≤ limit →
      9 * after.length + 9 ≤ frames →
      Quiet stratum.ceiling (Cursor.headKind rest) →
      ∃ final, continuation bound (expression bound limit) frames left cursor = .read node final ∧
        cursor.Stops final rest) :
    ExtendsTo bound stratum (before ++ token :: after) node := by
  intro limit frames power cursor rest start short within deep below quiet
  rw [List.length_append, List.length_cons] at short deep
  rcases extended limit frames power cursor (token :: (after ++ rest)) (by simpa using start) (by omega)
      within (by omega) (Nat.lt_of_lt_of_le below loose) between with ⟨middle, steps, stops, few, loop⟩
  have next : middle.peek = token := middle.peek_of_tokens token _ stops.rest
  rcases continued limit frames middle.advance rest stops.rest (by omega) within (by omega) quiet with
    ⟨final, result, stopped⟩
  refine ⟨final, steps + 1, stops.trans stopped.of_advance, ?_, fun fuel => ?_⟩
  · rw [List.length_append, List.length_cons]
    omega
  -- one step more than the left part takes: the one that goes on with the token behind it
  · have step := extend_step bound (expression bound limit) frames power fuel left middle
      (next ▸ Nat.lt_of_lt_of_le below tight)
    rw [Nat.add_assoc, Nat.add_comm 1 fuel, loop (fuel + 1), step, result]
    rfl

theorem extends_binary {stratum : Stratum} {before after : List Token} {token : Token}
    {left right : Node} {operator : Operator} (first : ExtendsTo bound stratum before left)
    (sign : stratum.operator? token.kind = some operator)
    (second : ExtendsTo bound stratum.tighter after right) :
    ExtendsTo bound stratum (before ++ token :: after) (.binary left operator right token.line) := by
  rcases stratum.operator?_power token.kind operator sign with ⟨low, high, tight, -⟩
  refine extends_continuation bound first (operator?_quiet stratum token.kind operator sign)
    (Nat.le_refl _) (Nat.le_of_eq low.symm) ?_
  intro limit frames cursor rest start short within deep quiet
  have here : cursor.current = token := cursor.current_of_tokens _ _ start
  rcases reads_of_extends bound second limit frames token.kind.power
    cursor.advance rest (by rw [Cursor.advance_tokens, start]; rfl) short within (by omega) tight
    (high ▸ quiet) with ⟨final, result, stops⟩
  refine ⟨final, ?_, stops.of_advance⟩
  rw [continuation_binary bound _ _ left cursor stratum operator (here ▸ sign), here, result]
  rfl

theorem enclosed_reads {tokens : List Token} {node : Node} {close : TokenKind}
    (inner : ExtendsTo bound .equality tokens node) (plain : Quiet .lowest close)
    (limit frames : Nat) (cursor : Cursor) (last : Token) (rest : List Token)
    (behind : cursor.tokens.tail = tokens ++ last :: rest) (closed : last.kind = close)
    (short : tokens.length ≤ bound) (within : frames ≤ limit) (deep : 9 * (tokens.length) + 3 ≤ frames) :
    ∃ middle, expression bound limit frames .lowest cursor.advance = .read node middle ∧
      expect frames close middle = .read () middle.advance ∧ cursor.Stops middle.advance rest := by
  have quiet : Quiet .lowest (Cursor.headKind (last :: rest)) := by
    rw [Cursor.headKind, closed]
    exact plain
  rcases reads_of_extends bound inner limit frames .lowest cursor.advance
    (last :: rest) behind short within deep (by decide) quiet with ⟨middle, result, stops⟩
  exact ⟨middle, result, expect_read (by omega) close middle last rest stops.rest closed,
    stops.of_advance.advance⟩

theorem extends_index {before tokens : List Token} {first last : Token} {container position : Node}
    (indexed : ExtendsTo bound .application before container) (opened : first.kind = .lbracket)
    (inner : ExtendsTo bound .equality tokens position) (closed : last.kind = .rbracket) :
    ExtendsTo bound .application (before ++ first :: (tokens ++ [last]))
      (.index container position first.line) := by
  refine extends_continuation bound indexed ?_ (Nat.le_refl _) ?_ ?_
  · rw [opened]
    exact ⟨by decide, by decide⟩
  · rw [opened]
    decide
  · intro limit frames cursor rest start short within deep quiet
    rcases brackets_stream cursor first last tokens rest start with ⟨here, behind⟩
    rw [List.length_append] at short deep
    rcases enclosed_reads bound inner ⟨by decide, by decide⟩
      limit frames cursor last rest behind closed (by omega) within (by omega) with
      ⟨middle, result, expected, stops⟩
    refine ⟨middle.advance, ?_, stops⟩
    rw [continuation_index bound _ _ container cursor (here ▸ opened), here, result]
    simp only [Outcome.read_bind, bind_apply, expected, pure_apply]

theorem extends_call {before tokens : List Token} {first last : Token} {callee : Node}
    {arguments : List Node} (called : ExtendsTo bound .application before callee)
    (opened : first.kind = .lparen) (listed : ReadsListing bound tokens arguments)
    (closed : last.kind = .rparen) :
    ExtendsTo bound .application (before ++ first :: (tokens ++ [last]))
      (.call callee arguments first.line) := by
  refine extends_continuation bound called ?_ (Nat.le_refl _) ?_ ?_
  · rw [opened]
    exact ⟨by decide, by decide⟩
  · rw [opened]
    decide
  · intro limit frames cursor rest start short within deep quiet
    rcases brackets_stream cursor first last tokens rest start with ⟨here, behind⟩
    rw [List.length_append] at short deep
    rcases listed limit (frames - 2) .rparen cursor last rest behind closed (.inl rfl)
      (by omega) (by omega) (by omega) with ⟨after, result, stops⟩
    refine ⟨after, ?_, stops⟩
    rw [continuation_call bound _ _ callee cursor (here ▸ opened), here, above_apply (by omega), result]
    rfl

theorem leaf_extends {token : Token} {node : Node}
    (reads : ∀ (nested : Nat → Power → Production Node) (frames : Nat) (cursor : Cursor),
      cursor.current = token → operand bound nested frames cursor = .read node cursor) :
    ExtendsTo bound .primary [token] node := by
  apply extends_of_operand
  intro limit frames cursor rest start short within deep quiet
  have here : cursor.current = token := cursor.current_of_tokens token rest start
  exact ⟨cursor, reads _ _ cursor here, by rw [start]; rfl, rfl⟩

theorem integer_extends {token : Token} {value : Nat} (kind : token.kind = .int)
    (written : Text.Numeral token.literal value) (small : value ≤ 0x7fffffffffffffff) :
    ExtendsTo bound .primary [token] (.integer value token.line) := by
  apply leaf_extends
  intro nested frames cursor here
  have inside : ¬ (value : Int) > integerMax := by
    rw [integerMax]
    omega
  simp only [operand, bind_apply, current_apply, Outcome.read_bind, here, kind, integer,
    Text.readInteger_numeral token.literal value written, if_neg inside, pure_apply]

theorem unary_extends {token : Token} {tokens : List Token} {operator : Operator} {node : Node}
    (sign : leading? token.kind = some operator) (inner : ExtendsTo bound .unary tokens node) :
    ExtendsTo bound .unary (token :: tokens) (.unary operator node token.line) := by
  apply extends_of_operand
  intro limit frames cursor rest start short within deep quiet
  rw [List.length_cons] at short deep
  have here : cursor.current = token := cursor.current_of_tokens token _ start
  rcases reads_of_extends bound inner limit frames .unary cursor.advance rest
    (by rw [Cursor.advance_tokens, start]; rfl) (by omega) within (by omega) (by decide) quiet with
    ⟨after, result, stops⟩
  refine ⟨after, ?_, stops.of_advance⟩
  have production : operand bound (expression bound limit) frames cursor =
      unary (expression bound limit) frames operator cursor := by
    simp only [operand, bind_apply, current_apply, Outcome.read_bind, here]
    revert sign
    cases token.kind <;> intro sign <;> cases sign <;> rfl
  rw [production]
  simp only [unary, bind_apply, current_apply, advance_apply, Outcome.read_bind, here, result,
    pure_apply]

theorem group_extends {first last : Token} {tokens : List Token} {node : Node}
    (opened : first.kind = .lparen) (inner : ExtendsTo bound .equality tokens node)
    (closed : last.kind = .rparen) :
    ExtendsTo bound .primary (first :: (tokens ++ [last])) node := by
  apply extends_of_operand
  intro limit frames cursor rest start short within deep quiet
  simp only [List.length_cons, List.length_append] at short deep
  rcases brackets_stream cursor first last tokens rest start with ⟨here, behind⟩
  rcases enclosed_reads bound inner ⟨by decide, by decide⟩
    limit frames cursor last rest behind closed (by omega) within (by omega) with
    ⟨middle, result, expected, stops⟩
  refine ⟨middle.advance, ?_, stops⟩
  simp only [operand, bind_apply, current_apply, Outcome.read_bind, here, opened, group,
    advance_apply, result, expected, pure_apply]

theorem array_extends {first last : Token} {tokens : List Token} {elements : List Node}
    (opened : first.kind = .lbracket) (listed : ReadsListing bound tokens elements)
    (closed : last.kind = .rbracket) :
    ExtendsTo bound .primary (first :: (tokens ++ [last])) (.array elements first.line) := by
  apply extends_of_operand
  intro limit frames cursor rest start short within deep quiet
  simp only [List.length_cons, List.length_append] at short deep
  rcases brackets_stream cursor first last tokens rest start with ⟨here, behind⟩
  rcases listed limit (frames - 2) .rbracket cursor last rest behind closed
    (.inr rfl) (by omega) (by omega) (by omega) with ⟨after, result, stops⟩
  have calls : 2 ≤ frames := by omega
  refine ⟨after, ?_, stops⟩
  simp only [operand, bind_apply, current_apply, Outcome.read_bind, here, opened, array,
    above_apply calls, result, pure_apply]

theorem map_extends {first last : Token} {tokens : List Token} {nodes : List (Node × Node)}
    (opened : first.kind = .lbrace) (listed : ReadsPairs bound tokens nodes)
    (closed : last.kind = .rbrace) :
    ExtendsTo bound .primary (first :: (tokens ++ [last])) (.map nodes first.line) := by
  apply extends_of_operand
  intro limit frames cursor rest start short within deep quiet
  simp only [List.length_cons, List.length_append] at short deep
  rcases brackets_stream cursor first last tokens rest start with ⟨here, behind⟩
  rcases listed limit frames bound cursor last rest behind closed
    (by omega) within (by omega) (by omega) with ⟨after, result, stops⟩
  refine ⟨after, ?_, stops⟩
  simp only [operand, bind_apply, current_apply, Outcome.read_bind, here, opened, map, result,
    pure_apply]

theorem block_entered {body : List Token} {node : Node} (derived : Block body node)
    (reads : ReadsBlock bound body node) (limit frames : Nat) (cursor : Cursor) (rest : List Token)
    (behind : cursor.tokens.tail = body ++ rest) (short : body.length ≤ bound)
    (within : frames ≤ limit) (deep : 9 * body.length + 3 ≤ frames) :
    expect frames .lbrace cursor = .read () cursor.advance ∧
      ∃ after, block bound (expression bound limit) frames cursor.advance = .read node after ∧
        cursor.Stops after rest := by
  rcases derived.start with ⟨brace, more, shape, kind⟩
  have next : cursor.tokens.tail = brace :: (more ++ rest) := by rw [behind, shape]; rfl
  rcases reads limit frames cursor.advance rest behind short within (by omega) with
    ⟨after, result, stops⟩
  exact ⟨expect_read (by omega) .lbrace cursor brace _ next kind, after, result, stops.of_advance⟩

theorem conditional_reads {word first last : Token} {test body : List Token}
    {condition consequence : Node} (kind : word.kind = .ifWord) (opened : first.kind = .lparen)
    (tested : ExtendsTo bound .equality test condition) (closed : last.kind = .rparen)
    (derived : Block body consequence) (chosen : ReadsBlock bound body consequence)
    (limit frames : Nat) (cursor : Cursor) (behind : List Token)
    (start : cursor.tokens = word :: first :: (test ++ last :: (body ++ behind)))
    (short : test.length + body.length ≤ bound) (within : frames ≤ limit) (deep : 9 * (test.length + body.length) + 3 ≤ frames) :
    ∃ after, cursor.Stops after behind ∧ operand bound (expression bound limit) frames cursor =
      (alternative bound (expression bound limit) frames after).bind fun other =>
        pure (.conditional condition consequence other word.line) := by
  have here : cursor.current = word := cursor.current_of_tokens word _ start
  have next : cursor.tokens.tail = first :: (test ++ last :: (body ++ behind)) := by rw [start]; rfl
  have entered : expect frames .lparen cursor = .read () cursor.advance :=
    expect_read (by omega) .lparen cursor first _ next opened
  rcases enclosed_reads bound tested ⟨by decide, by decide⟩
    limit frames cursor.advance last (body ++ behind) (by rw [Cursor.advance_tokens, next]; rfl) closed
    (by omega) within (by omega) with ⟨middle, result, expected, stops⟩
  rcases block_entered bound derived chosen limit frames middle.advance
    behind stops.rest (by omega) within (by omega) with ⟨braced, after, inner, stopped⟩
  refine ⟨after, stops.of_advance.trans stopped, ?_⟩
  simp only [operand, bind_apply, current_apply, Outcome.read_bind, here, kind, conditional, entered,
    advance_apply, result, expected, braced, inner]

theorem conditional_extends {word first last : Token} {test body : List Token}
    {condition consequence : Node} (kind : word.kind = .ifWord) (opened : first.kind = .lparen)
    (tested : ExtendsTo bound .equality test condition) (closed : last.kind = .rparen)
    (derived : Block body consequence) (chosen : ReadsBlock bound body consequence) :
    ExtendsTo bound .primary (word :: first :: (test ++ last :: body))
      (.conditional condition consequence none word.line) := by
  apply extends_of_operand
  intro limit frames cursor rest start short within deep quiet
  simp only [List.length_cons, List.length_append] at short deep
  rcases conditional_reads bound kind opened tested closed derived chosen
    limit frames cursor rest (by simpa using start) (by omega) within (by omega) with ⟨after, stops, result⟩
  have plain : after.peek.kind ≠ .elseWord := by
    rw [after.peek_kind, stops.rest]
    exact quiet.1
  refine ⟨after, ?_, stops⟩
  rw [result]
  simp only [alternative, bind_apply, peek_apply, Outcome.read_bind, choice_apply, if_neg plain,
    pure_apply]

theorem alternative_extends {word first last otherwise : Token} {test body other : List Token}
    {condition consequence node : Node} (kind : word.kind = .ifWord) (opened : first.kind = .lparen)
    (tested : ExtendsTo bound .equality test condition) (closed : last.kind = .rparen)
    (derived : Block body consequence) (chosen : ReadsBlock bound body consequence)
    (kept : otherwise.kind = .elseWord) (second : Block other node)
    (rejected : ReadsBlock bound other node) :
    ExtendsTo bound .primary (word :: first :: (test ++ last :: (body ++ otherwise :: other)))
      (.conditional condition consequence (some node) word.line) := by
  apply extends_of_operand
  intro limit frames cursor rest start short within deep quiet
  simp only [List.length_cons, List.length_append] at short deep
  rcases conditional_reads bound kind opened tested closed derived chosen
    limit frames cursor (otherwise :: (other ++ rest)) (by simpa using start) (by omega) within (by omega) with
    ⟨middle, stops, result⟩
  have next : middle.peek.kind = .elseWord := by
    rw [middle.peek_of_tokens otherwise _ stops.rest, kept]
  rcases block_entered bound second rejected limit frames
    middle.advance rest (by rw [Cursor.advance_tokens, stops.rest]; rfl) (by omega) within (by omega) with
    ⟨braced, after, inner, stopped⟩
  refine ⟨after, ?_, stops.trans stopped.of_advance⟩
  rw [result]
  simp only [alternative, bind_apply, peek_apply, Outcome.read_bind, choice_apply, next, if_true,
    advance_apply, braced, inner, pure_apply]

theorem moreParameters_reads {tokens : List Token} {name : Name} {names : List Name} {frames : Nat}
    (enough : 2 ≤ frames) (derived : Parameters tokens (name :: names)) :
    ∃ token more, tokens = token :: more ∧ token.kind = .ident ∧ nameOf token = name ∧
      ∀ (fuel : Nat) (cursor : Cursor) (last : Token) (rest : List Token),
        cursor.tokens.tail = more ++ last :: rest → last.kind = .rparen → more.length < fuel →
        ∃ after, moreParameters frames fuel cursor = .read names after ∧ cursor.Stops after rest := by
  generalize shape : name :: names = all at derived
  induction derived generalizing name names with
  | none => cases shape
  | last kind =>
      rcases List.cons.inj shape with ⟨rfl, rfl⟩
      refine ⟨_, [], rfl, kind, rfl, ?_⟩
      intro fuel cursor last rest behind closed room
      obtain ⟨fuel, rfl⟩ : ∃ more, fuel = more + 1 := ⟨fuel - 1, by omega⟩
      have next : ¬ cursor.peek.kind = .comma := by
        rw [cursor.peek_of_tokens last rest behind, closed]
        decide
      refine ⟨cursor.advance, ?_, (⟨behind, rfl⟩ : cursor.Stops cursor (last :: rest)).advance⟩
      simp only [moreParameters, bind_apply, peek_apply, Outcome.read_bind, choice_apply,
        if_neg next, expect_read enough .rparen cursor last rest behind closed, pure_apply]
  | @more token comma tokens name' names' kind divided others ih =>
      rcases List.cons.inj shape with ⟨rfl, rfl⟩
      rcases ih rfl with ⟨second, more, rfl, named, rfl, reads⟩
      refine ⟨token, comma :: second :: more, rfl, kind, rfl, ?_⟩
      intro fuel cursor last rest behind closed room
      simp only [List.length_cons] at room
      obtain ⟨fuel, rfl⟩ : ∃ more, fuel = more + 1 := ⟨fuel - 1, by omega⟩
      have next : cursor.peek.kind = .comma := by
        rw [cursor.peek_of_tokens comma _ behind, divided]
      have onward : cursor.advance.tokens.tail = second :: (more ++ last :: rest) := by
        rw [Cursor.advance_tokens, behind]
        rfl
      have entered := expect_read enough .ident cursor.advance second _ onward named
      have here : cursor.advance.advance.current = second :=
        Cursor.current_of_tokens _ second _ onward
      rcases reads fuel cursor.advance.advance last rest
        (by rw [Cursor.advance_tokens, onward]; rfl) closed (by omega) with ⟨after, result, stops⟩
      refine ⟨after, ?_, stops.of_advance.of_advance⟩
      simp only [moreParameters, bind_apply, peek_apply, Outcome.read_bind, choice_apply, next,
        if_true, advance_apply, entered, current_apply, here, result, pure_apply]

theorem parameters_read {tokens : List Token} {names : List Name} (frames : Nat)
    (enough : 2 ≤ frames) (derived : Parameters tokens names) (cursor : Cursor) (last : Token) (rest : List Token)
    (behind : cursor.tokens.tail = tokens ++ last :: rest) (closed : last.kind = .rparen)
    (short : tokens.length ≤ bound) :
    ∃ after, parameters bound frames cursor = .read names after ∧ cursor.Stops after rest := by
  have filled : 1 ≤ frames := Nat.le_of_succ_le enough
  cases names with
  | nil =>
      cases derived
      have next : cursor.peek.kind = .rparen := by
        rw [cursor.peek_of_tokens last rest behind, closed]
      refine ⟨cursor.advance, ?_, (⟨behind, rfl⟩ : cursor.Stops cursor (last :: rest)).advance⟩
      simp only [parameters, bind_apply, room_apply filled, peek_apply, Outcome.read_bind, choice_apply, next, if_true,
        advance_apply, pure_apply]
  | cons name names =>
      rcases moreParameters_reads enough derived with ⟨token, more, rfl, kind, rfl, reads⟩
      have next : ¬ cursor.peek.kind = .rparen := by
        rw [cursor.peek_of_tokens token _ behind, kind]
        decide
      have entered := expect_read enough .ident cursor token _ behind kind
      have here : cursor.advance.current = token := Cursor.current_of_tokens _ token _ behind
      obtain ⟨after, result, stops⟩ := reads bound cursor.advance last rest
        (by rw [Cursor.advance_tokens, behind]; rfl) closed (by rw [List.length_cons] at short; omega)
      refine ⟨after, ?_, stops.of_advance⟩
      simp only [parameters, bind_apply, room_apply filled, peek_apply, Outcome.read_bind, choice_apply, if_neg next,
        entered, current_apply, here, result, pure_apply]

theorem function_extends {word first last : Token} {listed body : List Token} {names : List Name}
    {node : Node} (kind : word.kind = .fnWord) (opened : first.kind = .lparen)
    (named : Parameters listed names) (closed : last.kind = .rparen)
    (derived : Block body node) (inner : ReadsBlock bound body node) :
    ExtendsTo bound .primary (word :: first :: (listed ++ last :: body))
      (.function names node word.line) := by
  apply extends_of_operand
  intro limit frames cursor rest start short within deep quiet
  simp only [List.length_cons, List.length_append] at short deep
  have here : cursor.current = word := cursor.current_of_tokens word _ start
  have next : cursor.tokens.tail = first :: (listed ++ last :: (body ++ rest)) := by
    rw [start]
    simp
  have entered : expect frames .lparen cursor = .read () cursor.advance :=
    expect_read (by omega) .lparen cursor first _ next opened
  rcases parameters_read bound (frames - 1) (by omega) named cursor.advance last (body ++ rest)
    (by rw [Cursor.advance_tokens, next]; rfl) closed (by omega) with ⟨middle, result, stops⟩
  rcases block_entered bound derived inner limit frames middle rest
    stops.rest (by omega) within (by omega) with ⟨braced, after, blockRead, stopped⟩
  have calls : 1 ≤ frames := by omega
  refine ⟨after, ?_, stops.of_advance.trans stopped⟩
  simp only [operand, bind_apply, current_apply, Outcome.read_bind, here, kind, function, entered,
    above_apply calls, result, braced, blockRead, pure_apply]

end Expressions

end Marmoset.Grammar
