import Marmoset.Grammar
import Marmoset.Proofs.Grammar.Reading
import Marmoset.Proofs.Grammar.Stack

/-!
Lists, blocks and statements, and with them every phrase of the grammar: whatever a derivation
gives a tree to, reading gives the same tree. Since reading is a function, no token list has two
programs.
-/

namespace Marmoset.Grammar

open Marmoset.Derivation Production

section Lists

variable (bound : Nat)

theorem brackets_quiet (close : TokenKind) (brackets : close = .rparen ∨ close = .rbracket) :
    Quiet .lowest close ∧ close ≠ .comma := by
  rcases brackets with rfl | rfl <;> exact ⟨⟨by decide, by decide⟩, by decide⟩

theorem items_last {tokens : List Token} {node : Node} (filled : 0 < tokens.length)
    (item : ExtendsTo bound .equality tokens node) : ReadsItems bound tokens [node] := by
  intro limit frames fuel close cursor last rest start closed brackets short within deep room
  obtain ⟨fuel, rfl⟩ : ∃ more, fuel = more + 1 := ⟨fuel - 1, by omega⟩
  rcases brackets_quiet close brackets with ⟨plain, other⟩
  rcases reads_of_extends bound item limit frames .lowest cursor (last :: rest)
    start short within deep (by decide) (by rw [Cursor.headKind, closed]; exact plain) with
    ⟨middle, result, stops⟩
  have next : ¬ middle.peek.kind = .comma := by
    rw [middle.peek_of_tokens last rest stops.rest, closed]
    exact other
  have enough : 2 ≤ frames := by omega
  refine ⟨middle.advance, ?_, stops.advance⟩
  simp only [items, bind_apply, result, Outcome.read_bind, peek_apply, choice_apply, if_neg next,
    expect_read enough close middle last rest stops.rest closed, pure_apply]

theorem items_more {tokens more : List Token} {comma : Token} {node : Node} {nodes : List Node}
    (item : ExtendsTo bound .equality tokens node) (divided : comma.kind = .comma)
    (others : ReadsItems bound more nodes) :
    ReadsItems bound (tokens ++ comma :: more) (node :: nodes) := by
  intro limit frames fuel close cursor last rest start closed brackets short within deep room
  simp only [List.length_append, List.length_cons] at short deep room
  obtain ⟨fuel, rfl⟩ : ∃ more, fuel = more + 1 := ⟨fuel - 1, by omega⟩
  have quiet : Quiet .lowest (Cursor.headKind (comma :: (more ++ last :: rest))) := by
    rw [Cursor.headKind, divided]
    exact ⟨by decide, by decide⟩
  rcases reads_of_extends bound item limit frames .lowest cursor
    (comma :: (more ++ last :: rest)) (by simpa using start) (by omega) within (by omega) (by decide) quiet
    with ⟨middle, result, stops⟩
  have next : middle.peek.kind = .comma := by
    rw [middle.peek_of_tokens comma _ stops.rest, divided]
  rcases others limit frames fuel close middle.advance.advance last rest
    stops.advance.rest closed brackets (by omega) within (by omega) (by omega) with ⟨after, rests, stopped⟩
  refine ⟨after, ?_, stops.trans stopped.of_advance.of_advance⟩
  simp only [items, bind_apply, result, Outcome.read_bind, peek_apply, choice_apply, next, if_true,
    advance_apply, rests, pure_apply]

theorem listing_reads {tokens : List Token} {nodes : List Node} (derived : Listing tokens nodes)
    (reads : nodes ≠ [] → ReadsItems bound tokens nodes) : ReadsListing bound tokens nodes := by
  intro limit frames close cursor last rest behind closed brackets short within deep
  have filled : 1 ≤ frames := by omega
  rcases derived.start with ⟨rfl, rfl⟩ | ⟨some, token, more, rfl, begins⟩
  · have next : cursor.peek.kind = close := by
      rw [cursor.peek_of_tokens last rest behind, closed]
    refine ⟨cursor.advance, ?_, (⟨behind, rfl⟩ : cursor.Stops cursor (last :: rest)).advance⟩
    simp only [expressions, bind_apply, room_apply filled, peek_apply, Outcome.read_bind, choice_apply, next, if_true,
      advance_apply, pure_apply]
  · have apart := begins_plain token.kind (beginsStatement_of_expression token.kind begins).1
    have next : ¬ cursor.peek.kind = close := by
      rw [cursor.peek_of_tokens token _ behind]
      rcases brackets with rfl | rfl
      · exact apart.2.2.2.1
      · exact apart.2.2.2.2.1
    rcases reads some limit frames bound close cursor.advance last rest behind
      closed brackets short within deep short with ⟨after, result, stops⟩
    refine ⟨after, ?_, stops.of_advance⟩
    simp only [expressions, bind_apply, room_apply filled, peek_apply, Outcome.read_bind, choice_apply, if_neg next,
      advance_apply, result]

theorem pairs_none : ReadsPairs bound [] [] := by
  intro limit frames fuel cursor last rest behind closed short within deep room
  obtain ⟨fuel, rfl⟩ : ∃ more, fuel = more + 1 := ⟨fuel - 1, by simp at room; omega⟩
  have next : cursor.peek.kind = .rbrace := by
    rw [cursor.peek_of_tokens last rest behind, closed]
  have enough : 2 ≤ frames := by omega
  refine ⟨cursor.advance, ?_, (⟨behind, rfl⟩ : cursor.Stops cursor (last :: rest)).advance⟩
  simp only [pairs, bind_apply, peek_apply, Outcome.read_bind, choice_apply, next, if_true,
    expect_read enough .rbrace cursor last rest behind closed, pure_apply]

theorem pair_reads {before after : List Token} {colon : Token} {key value : Node}
    (derived : Expression .equality before key) (first : ExtendsTo bound .equality before key)
    (divided : colon.kind = .colon) (second : ExtendsTo bound .equality after value)
    (limit frames fuel : Nat) (cursor : Cursor) (behind : List Token)
    (start : cursor.tokens.tail = before ++ colon :: (after ++ behind))
    (quiet : Quiet .lowest (Cursor.headKind behind))
    (short : before.length + after.length ≤ bound) (within : frames ≤ limit)
    (deep : 9 * (before.length + after.length) + 3 ≤ frames) :
    ∃ middle, cursor.Stops middle behind ∧
      pairs (expression bound limit) frames (fuel + 1) cursor =
        (if Cursor.headKind behind = .rbrace then .read () middle else expect frames .comma middle).bind
          fun _ => pairs (expression bound limit) frames fuel >>= fun rest =>
            pure ((key, value) :: rest) := by
  rcases derived.start with ⟨token, more, shape, begins⟩
  have apart := begins_plain token.kind (beginsStatement_of_expression token.kind begins).1
  have next : ¬ cursor.peek.kind = .rbrace := by
    rw [cursor.peek_of_tokens token _ (by rw [start, shape]; rfl)]
    exact apart.2.2.1
  rcases enclosed_reads bound first ⟨by decide, by decide⟩
    limit frames cursor colon (after ++ behind) start divided (by omega) within (by omega) with
    ⟨left, keyRead, expected, keyStops⟩
  rcases reads_of_extends bound second limit frames .lowest
    left.advance.advance behind keyStops.rest (by omega) within (by omega) (by decide) quiet with
    ⟨middle, valueRead, valueStops⟩
  refine ⟨middle, keyStops.trans valueStops.of_advance, ?_⟩
  have kind : middle.peek.kind = Cursor.headKind behind := by
    rw [middle.peek_kind, valueStops.rest]
  simp only [pairs, bind_apply, peek_apply, Outcome.read_bind, choice_apply, if_neg next,
    advance_apply, keyRead, expected, valueRead, kind]
  split
  · rfl
  · rfl

theorem pairs_last {before after : List Token} {colon : Token} {key value : Node}
    (derived : Expression .equality before key) (first : ExtendsTo bound .equality before key)
    (divided : colon.kind = .colon) (second : ExtendsTo bound .equality after value) :
    ReadsPairs bound (before ++ colon :: after) [(key, value)] := by
  intro limit frames fuel cursor last rest behind closed short within deep room
  simp only [List.length_append, List.length_cons] at short deep room
  obtain ⟨fuel, rfl⟩ : ∃ more, fuel = more + 1 + 1 :=
    ⟨fuel - 2, by have := derived.length_pos; omega⟩
  have kind : Cursor.headKind (last :: rest) = .rbrace := closed
  rcases pair_reads bound derived first divided second limit frames (fuel + 1)
    cursor (last :: rest) (by simpa using behind) (by rw [kind]; exact ⟨by decide, by decide⟩)
    (by omega) within (by omega) with ⟨middle, stops, result⟩
  rcases pairs_none bound limit frames (fuel + 1) middle last rest stops.rest
    closed (by simp) within (by simp; omega) (by simp) with ⟨after, ended, stopped⟩
  refine ⟨after, ?_, stops.trans stopped⟩
  rw [result, if_pos kind]
  simp only [Outcome.read_bind, bind_apply, ended, pure_apply]

theorem pairs_more {before after more : List Token} {colon comma : Token} {key value : Node}
    {nodes : List (Node × Node)} (derived : Expression .equality before key)
    (first : ExtendsTo bound .equality before key) (divided : colon.kind = .colon)
    (second : ExtendsTo bound .equality after value) (ended : comma.kind = .comma)
    (others : ReadsPairs bound more nodes) :
    ReadsPairs bound (before ++ colon :: (after ++ comma :: more)) ((key, value) :: nodes) := by
  intro limit frames fuel cursor last rest behind closed short within deep room
  simp only [List.length_append, List.length_cons] at short deep room
  obtain ⟨fuel, rfl⟩ : ∃ more, fuel = more + 1 := ⟨fuel - 1, by omega⟩
  have kind : Cursor.headKind (comma :: (more ++ last :: rest)) = .comma := ended
  rcases pair_reads bound derived first divided second limit frames fuel
    cursor (comma :: (more ++ last :: rest)) (by simpa using behind)
    (by rw [kind]; exact ⟨by decide, by decide⟩) (by omega) within (by omega) with ⟨middle, stops, result⟩
  rcases others limit frames fuel middle.advance last rest stops.advance.rest
    closed (by omega) within (by omega) (by omega) with ⟨final, rests, stopped⟩
  refine ⟨final, ?_, stops.trans stopped.of_advance⟩
  rw [result, if_neg (by rw [kind]; decide), expect_read (by omega) .comma middle comma _ stops.rest ended]
  simp only [Outcome.read_bind, bind_apply, rests, pure_apply]

end Lists

section Statements

variable (bound : Nat)

theorem accept_semicolon (cursor : Cursor) (semicolon : Token) (rest : List Token)
    (behind : cursor.tokens.tail = semicolon :: rest) (kind : semicolon.kind = .semicolon) :
    accept .semicolon cursor = .read () cursor.advance := by
  rw [accept, if_pos]
  rw [cursor.peek_of_tokens semicolon rest behind, kind]

theorem accept_other (cursor : Cursor) (other : Cursor.headKind cursor.tokens.tail ≠ .semicolon) :
    accept .semicolon cursor = .read () cursor := by
  rw [accept, if_neg]
  rw [cursor.peek_kind]
  exact other

theorem binding_reads {word name sign : Token} {tokens : List Token} {value : Node}
    (kind : word.kind = .letWord) (named : name.kind = .ident) (assigned : sign.kind = .assign)
    (inner : ExtendsTo bound .equality tokens value) :
    ReadsSentence bound (word :: name :: sign :: tokens)
      (.binding (nameOf name) value word.line) := by
  intro limit frames cursor rest start short within deep quiet
  simp only [List.length_cons] at short deep
  have here : cursor.current = word := cursor.current_of_tokens word _ start
  have next : cursor.tokens.tail = name :: sign :: (tokens ++ rest) := by rw [start]; rfl
  have second : cursor.advance.tokens.tail = sign :: (tokens ++ rest) := by
    rw [Cursor.advance_tokens, next]
    rfl
  have there : cursor.advance.current = name := Cursor.current_of_tokens _ name _ next
  obtain ⟨middle, result, stops⟩ := reads_of_extends bound inner limit (frames - 4) .lowest
    cursor.advance.advance.advance rest
    (by rw [Cursor.advance_tokens, Cursor.advance_tokens, second]; rfl)
    (by omega) (by omega) (by omega) (by decide) quiet
  have calls : 4 ≤ frames := by omega
  have enough : 2 ≤ frames - 4 := by omega
  refine ⟨middle, stops.of_advance.of_advance.of_advance, ?_⟩
  simp only [statement, above_apply calls, bind_apply, current_apply, Outcome.read_bind, here, kind, binding,
    expect_read enough .ident cursor name _ next named, there, advance_apply,
    expect_read enough .assign cursor.advance sign _ second assigned, result]

theorem returning_reads {word : Token} {tokens : List Token} {value : Node}
    (kind : word.kind = .returnWord) (inner : ExtendsTo bound .equality tokens value) :
    ReadsSentence bound (word :: tokens) (.returning value word.line) := by
  intro limit frames cursor rest start short within deep quiet
  simp only [List.length_cons] at short deep
  have here : cursor.current = word := cursor.current_of_tokens word _ start
  rcases reads_of_extends bound inner limit (frames - 4) .lowest cursor.advance rest
    (by rw [Cursor.advance_tokens, start]; rfl) (by omega) (by omega) (by omega) (by decide) quiet with
    ⟨middle, result, stops⟩
  have calls : 4 ≤ frames := by omega
  have filled : 1 ≤ frames - 4 := by omega
  refine ⟨middle, stops.of_advance, ?_⟩
  simp only [statement, above_apply calls, bind_apply, current_apply, Outcome.read_bind, here, kind,
    returning, room_apply filled,
    advance_apply, result]

theorem bare_reads {token : Token} {tokens : List Token} {node : Node}
    (derived : Expression .equality (token :: tokens) node)
    (inner : ExtendsTo bound .equality (token :: tokens) node) :
    ReadsSentence bound (token :: tokens) (.statement node token.line) := by
  intro limit frames cursor rest start short within deep quiet
  have here : cursor.current = token := cursor.current_of_tokens token _ start
  rcases derived.start with ⟨first, more, shape, begins⟩
  rcases List.cons.inj shape with ⟨rfl, rfl⟩
  rcases beginsStatement_of_expression token.kind begins with ⟨-, notLet, notReturn⟩
  rcases reads_of_extends bound inner limit (frames - 4) .lowest cursor rest start
    short (by omega) (by omega) (by decide) quiet with ⟨middle, result, stops⟩
  have production : statement (expression bound limit) frames cursor =
      bareExpression (expression bound limit) (frames - 4) cursor := by
    rw [statement, above_apply (by omega)]
    simp only [bind_apply, current_apply, Outcome.read_bind, here]
  refine ⟨middle, stops, ?_⟩
  rw [production]
  simp only [bareExpression, bind_apply, current_apply, Outcome.read_bind, here, result]

theorem blockStatements_of_run (nested : Nat → Power → Production Node) (frames : Nat)
    (depth : Int) {cursor final : Cursor}
    {nodes : List Node} (run : Run nested frames cursor nodes final)
    (closed : final.current.kind = .rbrace) (fuel : Nat) (room : nodes.length < fuel) :
    blockStatements nested frames depth fuel cursor = .read nodes final := by
  induction run generalizing fuel with
  | stop cursor =>
      obtain ⟨fuel, rfl⟩ : ∃ more, fuel = more + 1 := ⟨fuel - 1, by simp at room; omega⟩
      rw [blockStatements_succ, if_pos closed]
  | step begins first others ih =>
      obtain ⟨fuel, rfl⟩ : ∃ more, fuel = more + 1 := ⟨fuel - 1, by simp at room; omega⟩
      rcases begins_plain _ begins with ⟨-, -, notBrace, -, -, notEnd⟩
      rw [blockStatements_succ, if_neg notBrace, if_neg notEnd, first]
      simp only [ih closed fuel (by simpa using room), Outcome.read_bind, pure_apply]

theorem statements_of_run (nested : Nat → Power → Production Node) (frames : Nat)
    {cursor final : Cursor}
    {nodes : List Node} (run : Run nested frames cursor nodes final)
    (ended : final.current.kind = .eof) (fuel : Nat) (room : nodes.length < fuel) :
    statements nested frames fuel cursor = .read nodes final := by
  induction run generalizing fuel with
  | stop cursor =>
      obtain ⟨fuel, rfl⟩ : ∃ more, fuel = more + 1 := ⟨fuel - 1, by simp at room; omega⟩
      rw [statements_succ, if_pos ended]
  | step begins first others ih =>
      obtain ⟨fuel, rfl⟩ : ∃ more, fuel = more + 1 := ⟨fuel - 1, by simp at room; omega⟩
      rcases begins_plain _ begins with ⟨-, -, -, -, -, notEnd⟩
      rw [statements_succ, if_neg notEnd, first]
      simp only [ih ended fuel (by simpa using room), Outcome.read_bind, pure_apply]

theorem block_reads {first last : Token} {tokens : List Token} {nodes : List Node}
    (inner : ReadsStatements bound .rbrace tokens nodes) (closed : last.kind = .rbrace) :
    ReadsBlock bound (first :: (tokens ++ [last])) (.block nodes first.line) := by
  intro limit frames cursor rest start short within deep
  simp only [List.length_cons, List.length_append] at short deep
  rcases brackets_stream cursor first last tokens rest start with ⟨here, behind⟩
  rcases inner limit (frames - 2) cursor.advance (last :: rest) behind
    (by omega) (by omega) (by omega) closed (.inl rfl) with ⟨final, run, stream, quiet, few⟩
  have brace : final.current.kind = .rbrace := by
    rw [final.current_of_tokens last rest stream, closed]
  refine ⟨final, ?_, by rw [stream]; rfl, quiet⟩
  rw [block, above_apply (by omega), bind_apply, room_apply (by omega), Outcome.read_bind, blockBody,
    blockStatements_of_run _ _ cursor.depth run brace bound (by omega), here]
  rfl

theorem statements_none (follow : TokenKind) : ReadsStatements bound follow [] [] := by
  intro limit frames cursor rest start short within deep next ends
  exact ⟨cursor, .stop cursor, start, rfl, Nat.le_refl _⟩

theorem statements_ended {follow : TokenKind} {tokens more : List Token} {semicolon : Token}
    {node : Node} {nodes : List Node} (derived : Sentence tokens node)
    (sentence : ReadsSentence bound tokens node) (kind : semicolon.kind = .semicolon)
    (others : ReadsStatements bound follow more nodes) :
    ReadsStatements bound follow (tokens ++ semicolon :: more) (node :: nodes) := by
  intro limit frames cursor rest start short within deep next ends
  simp only [List.length_append, List.length_cons] at short deep
  have stream : cursor.tokens = tokens ++ semicolon :: (more ++ rest) := by simpa using start
  have quiet : Quiet .lowest (Cursor.headKind (semicolon :: (more ++ rest))) := by
    rw [Cursor.headKind, kind]
    exact ⟨by decide, by decide⟩
  rcases sentence limit frames cursor _ stream (by omega) within (by omega) quiet with ⟨middle, stops, result⟩
  rcases others limit frames middle.advance.advance rest
    stops.advance.rest (by omega) within (by omega) next ends with ⟨final, run, left, silent, few⟩
  rcases derived.start with ⟨token, tail, shape, begins⟩
  have here : cursor.current = token := cursor.current_of_tokens token _ (by rw [stream, shape]; rfl)
  have first : statement (expression bound limit) frames cursor = .read node middle.advance := by
    rw [result, accept_semicolon middle semicolon _ stops.rest kind]
    rfl
  refine ⟨final, .step (here ▸ begins) first run, left, silent.trans stops.quiet, ?_⟩
  simp only [List.length_append, List.length_cons]
  omega

theorem statements_unended {follow : TokenKind} {tokens more : List Token} {node : Node}
    {nodes : List Node} (derived : Sentence tokens node)
    (sentence : ReadsSentence bound tokens node)
    (stops : continues (nextKind more follow) = false) (rests : Statements follow more nodes)
    (others : ReadsStatements bound follow more nodes) :
    ReadsStatements bound follow (tokens ++ more) (node :: nodes) := by
  intro limit frames cursor rest start short within deep next ends
  rw [List.length_append] at short deep
  have stream : cursor.tokens = tokens ++ (more ++ rest) := by rw [start, List.append_assoc]
  have kind : Cursor.headKind (more ++ rest) = nextKind more follow := by
    cases more with
    | nil => exact next
    | cons token more => rfl
  have apart : nextKind more follow ≠ .elseWord ∧ nextKind more follow ≠ .semicolon := by
    rcases rests.start with rfl | ⟨token, tail, rfl, begins⟩
    · rcases ends with rfl | rfl <;> exact ⟨by decide, by decide⟩
    · rcases begins_plain token.kind begins with ⟨notElse, notSemicolon, -⟩
      exact ⟨notElse, notSemicolon⟩
  have quiet : Quiet .lowest (Cursor.headKind (more ++ rest)) := by
    rw [kind]
    exact ⟨apart.1, not_continues _ stops⟩
  rcases sentence limit frames cursor _ stream (by omega) within (by omega) quiet with ⟨middle, stopped, result⟩
  rcases others limit frames middle.advance rest stopped.rest
    (by omega) within (by omega) next ends with ⟨final, run, left, silent, few⟩
  rcases derived.start with ⟨token, tail, shape, begins⟩
  have here : cursor.current = token := cursor.current_of_tokens token _ (by rw [stream, shape]; rfl)
  have first : statement (expression bound limit) frames cursor = .read node middle := by
    rw [result, accept_other middle (by rw [stopped.rest, kind]; exact apart.2)]
    rfl
  refine ⟨final, .step (here ▸ begins) first run, left, silent.trans stopped.quiet, ?_⟩
  rw [shape]
  simp only [List.length_append, List.length_cons]
  omega

end Statements

mutual

/-- The induction is on derivations; what an expression says about the loop behind it is what its
left part needs when a longer expression is read. -/
theorem expression_extends (bound : Nat) {stratum : Stratum} {tokens : List Token} {node : Node} :
    Expression stratum tokens node → ExtendsTo bound stratum tokens node
  | .tighter inner => extends_tighter bound (expression_extends bound inner)
  | .binary first sign second =>
      extends_binary bound (expression_extends bound first) sign (expression_extends bound second)
  | .unary sign inner => unary_extends bound sign (expression_extends bound inner)
  | .call called opened listed closed =>
      extends_call bound (expression_extends bound called) opened
        (listing_reads bound listed (items_read bound listed)) closed
  | .index indexed opened inner closed =>
      extends_index bound (expression_extends bound indexed) opened
        (expression_extends bound inner) closed
  | .identifier kind => leaf_extends bound fun nested frames cursor here => by
      simp only [operand, bind_apply, current_apply, Outcome.read_bind, here, kind, pure_apply]
  | .integer kind written small => integer_extends bound kind written small
  | .string kind => leaf_extends bound fun nested frames cursor here => by
      simp only [operand, bind_apply, current_apply, Outcome.read_bind, here, kind, pure_apply]
  | .truth kind => leaf_extends bound fun nested frames cursor here => by
      simp only [operand, bind_apply, current_apply, Outcome.read_bind, here, kind, pure_apply]
  | .falsehood kind => leaf_extends bound fun nested frames cursor here => by
      simp only [operand, bind_apply, current_apply, Outcome.read_bind, here, kind, pure_apply]
  | .group opened inner closed => group_extends bound opened (expression_extends bound inner) closed
  | .conditional kind opened tested closed chosen =>
      conditional_extends bound kind opened (expression_extends bound tested) closed chosen
        (block_read bound chosen)
  | .alternative kind opened tested closed chosen kept rejected =>
      alternative_extends bound kind opened (expression_extends bound tested) closed chosen
        (block_read bound chosen) kept rejected (block_read bound rejected)
  | .function kind opened parameters closed inner =>
      function_extends bound kind opened parameters closed inner (block_read bound inner)
  | .array opened listed closed =>
      array_extends bound opened (listing_reads bound listed (items_read bound listed)) closed
  | .map opened listed closed => map_extends bound opened (pairs_read bound listed) closed

theorem items_read (bound : Nat) {tokens : List Token} {nodes : List Node} :
    Listing tokens nodes → nodes ≠ [] → ReadsItems bound tokens nodes
  | .none, filled => absurd rfl filled
  | .last item, _ => items_last bound item.length_pos (expression_extends bound item)
  | .more item divided others, _ =>
      items_more bound (expression_extends bound item) divided
        (items_read bound others (List.cons_ne_nil _ _))

theorem pairs_read (bound : Nat) {tokens : List Token} {nodes : List (Node × Node)} :
    Pairs tokens nodes → ReadsPairs bound tokens nodes
  | .none => pairs_none bound
  | .last first divided second =>
      pairs_last bound first (expression_extends bound first) divided
        (expression_extends bound second)
  | .more first divided second ended others =>
      pairs_more bound first (expression_extends bound first) divided
        (expression_extends bound second) ended (pairs_read bound others)

theorem block_read (bound : Nat) {tokens : List Token} {node : Node} :
    Block tokens node → ReadsBlock bound tokens node
  | .braces _ inner closed => block_reads bound (statements_read bound inner) closed

theorem sentence_reads (bound : Nat) {tokens : List Token} {node : Node} :
    Sentence tokens node → ReadsSentence bound tokens node
  | .binding kind named assigned inner =>
      binding_reads bound kind named assigned (expression_extends bound inner)
  | .returning kind inner => returning_reads bound kind (expression_extends bound inner)
  | .bare inner => bare_reads bound inner (expression_extends bound inner)

theorem statements_read (bound : Nat) {follow : TokenKind} {tokens : List Token}
    {nodes : List Node} : Statements follow tokens nodes → ReadsStatements bound follow tokens nodes
  | .none => statements_none bound follow
  | .ended sentence kind others =>
      statements_ended bound sentence (sentence_reads bound sentence) kind
        (statements_read bound others)
  | .unended sentence stops others =>
      statements_unended bound sentence (sentence_reads bound sentence) stops others
        (statements_read bound others)

end

/-- A program of the grammar is read as its own tree, whatever stands behind the end. -/
theorem readTokens_program (tokens rest : List Token) (program : Node) (limit : Nat)
    (derived : Program tokens program) (ended : Cursor.headKind rest = .eof)
    (enough : 9 * tokens.length + 9 ≤ limit) :
    ∃ reading, readTokens limit (tokens ++ rest) = .ok reading ∧ reading.diagnostics = [] ∧
      reading.program = program := by
  rcases derived with ⟨nodes, inner, rfl⟩
  have short : tokens.length ≤ (tokens ++ rest).length := by
    rw [List.length_append]
    omega
  obtain ⟨final, run, stream, quiet, few⟩ := statements_read ((tokens ++ rest).length + 1) inner
    limit (limit - 2) (.ofTokens (tokens ++ rest)) rest rfl (by omega) (by omega) (by omega) ended (.inr rfl)
  have done : final.current.kind = .eof := by rw [final.current_kind, stream, ended]
  have result : Grammar.program limit (tokens ++ rest) = .read nodes final :=
    statements_of_run _ _ run done ((tokens ++ rest).length + 1) (by omega)
  refine ⟨⟨nodes, final.diagnostics⟩, ?_, quiet, rfl⟩
  rw [readTokens, result]

/-- No token list has two programs. -/
theorem program_unique (tokens : List Token) (first second : Node) (left : Program tokens first)
    (right : Program tokens second) : first = second := by
  have read := readTokens_program tokens [] first _ left rfl (Nat.le_refl _)
  have again := readTokens_program tokens [] second _ right rfl (Nat.le_refl _)
  rcases read with ⟨reading, result, -, rfl⟩
  rcases again with ⟨other, same, -, rfl⟩
  rw [result] at same
  cases same
  rfl

/-- Whatever the stack, a program of the grammar is read as its own tree, unless the stack is too
small for the tokens and reading is broken off. -/
theorem reading_of_program (tokens rest : List Token) (program : Node) (limit : Nat)
    (derived : Program tokens program) (ended : Cursor.headKind rest = .eof) :
    ∃ reading, readTokens limit (tokens ++ rest) = .ok reading ∧
      ((reading.diagnostics = [] ∧ reading.program = program) ∨
        (limit < 9 * tokens.length + 9 ∧ reading.BrokenOff)) := by
  by_cases enough : 9 * tokens.length + 9 ≤ limit
  · rcases readTokens_program tokens rest program limit derived ended enough with
      ⟨reading, result, quiet, same⟩
    exact ⟨reading, result, .inl ⟨quiet, same⟩⟩
  · have scarce := Nat.lt_of_not_le enough
    rcases readTokens_program tokens rest program _ derived ended (Nat.le_refl _) with
      ⟨reading, result, quiet, same⟩
    rcases readTokens_within limit _ (Nat.le_of_lt scarce) (tokens ++ rest) with equal |
      ⟨short, broken, deep⟩
    · exact ⟨reading, equal.trans result, .inl ⟨quiet, same⟩⟩
    · exact ⟨short, broken, .inr ⟨scarce, deep⟩⟩

/-- Completeness: on every stack that is large enough, and on every other one that reading is not
broken off on, the reading of a derivable token list is its tree and nothing is reported. No other
tree has a derivation. -/
theorem derivable_program_read (tokens rest : List Token) (program : Node)
    (derived : Program tokens program) (ended : Cursor.headKind rest = .eof) :
    (∀ limit, ∃ reading, readTokens limit (tokens ++ rest) = .ok reading ∧
      ((reading.diagnostics = [] ∧ reading.program = program) ∨
        (limit < 9 * tokens.length + 9 ∧ reading.BrokenOff))) ∧
      ∀ other, Program tokens other → other = program := by
  constructor
  · intro limit
    exact reading_of_program tokens rest program limit derived ended
  · intro other also
    exact program_unique tokens other program also derived

/-- `a + b * f(7) a`: two statements, and no semicolon between them. -/
theorem two_statements_read : ∃ reading, readTokens 90
    ([⟨.ident, "a", 1, 0⟩, ⟨.plus, "+", 1, 2⟩, ⟨.ident, "b", 1, 4⟩, ⟨.asterisk, "*", 1, 6⟩,
      ⟨.ident, "f", 1, 8⟩, ⟨.lparen, "(", 1, 9⟩, ⟨.int, "7", 1, 10⟩, ⟨.rparen, ")", 1, 11⟩,
      ⟨.ident, "a", 1, 13⟩] ++ [.ending 1]) = .ok reading ∧ reading.diagnostics = [] ∧
    reading.program = .program
      [.statement (.binary (.identifier ⟨"a", 1, 0⟩) .add (.binary (.identifier ⟨"b", 1, 4⟩) .mul
        (.call (.identifier ⟨"f", 1, 8⟩) [.integer 7 1] 1) 1) 1) 1,
        .statement (.identifier ⟨"a", 1, 13⟩) 1] := by
  have name (literal : String) (column : Int) : Expression .primary [⟨.ident, literal, 1, column⟩]
      (.identifier ⟨literal, 1, column⟩) := .identifier rfl
  have seven : Expression .primary [⟨.int, "7", 1, 10⟩] (.integer 7 1) :=
    .integer rfl ⟨[7], by decide, by decide, by decide, rfl⟩ (by decide)
  have call : Expression .application (_ ++ ⟨.lparen, "(", 1, 9⟩ :: (_ ++ [⟨.rparen, ")", 1, 11⟩]))
      _ :=
    .call ((name "f" 8).loosen .application (by decide)) rfl (.last seven.loosest) rfl
  have product : Expression .product (_ ++ ⟨.asterisk, "*", 1, 6⟩ :: _) _ :=
    .binary ((name "b" 4).loosen .product (by decide)) rfl (call.loosen .unary (by decide))
  have sum : Expression .sum (_ ++ ⟨.plus, "+", 1, 2⟩ :: _) _ :=
    .binary ((name "a" 0).loosen .sum (by decide)) rfl product
  have derived : Statements .eof _ _ :=
    .unended (.bare sum.loosest) rfl (.unended (.bare (name "a" 13).loosest) rfl .none)
  rcases (derivable_program_read _ [.ending 1] _ ⟨_, derived, rfl⟩ rfl).1 90 with
    ⟨reading, result, ⟨quiet, same⟩ | ⟨scarce, -⟩⟩
  · exact ⟨reading, result, quiet, same⟩
  · exact absurd scarce (by decide)

end Marmoset.Grammar
