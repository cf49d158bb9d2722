import Marmoset.Grammar
import Marmoset.Proofs.Grammar.Accounts

/-!
Whatever is read without a diagnostic is a phrase of the grammar, and the tree that is read is the
tree of its derivation. The loop behind an operand is accounted for by the stratum of what stands to
the left of it: a token that binds no tighter than that stratum allows makes a longer expression of
the token's own stratum.
-/

namespace Marmoset.Derivation

theorem Stratum.rank_of_ceiling (first second : Stratum) (other : first ≠ .primary)
    (order : first.ceiling ≤ second.ceiling) : first.rank ≤ second.rank := by
  revert other order
  cases first <;> cases second <;> decide

theorem Stratum.rank_of_floor (first second : Stratum) (order : first.floor < second.floor) :
    first.tighter.rank ≤ second.rank := by
  revert order
  cases first <;> cases second <;> decide

end Marmoset.Derivation

namespace Marmoset.Grammar

open Marmoset.Derivation Production

theorem binary?_stratum (kind : TokenKind) (operator : Operator)
    (sign : kind.binary? = some operator) :
    ∃ stratum : Stratum, stratum.operator? kind = some operator := by
  cases kind <;> cases sign
  · exact ⟨.sum, rfl⟩
  · exact ⟨.sum, rfl⟩
  · exact ⟨.product, rfl⟩
  · exact ⟨.product, rfl⟩
  · exact ⟨.comparison, rfl⟩
  · exact ⟨.comparison, rfl⟩
  · exact ⟨.equality, rfl⟩
  · exact ⟨.equality, rfl⟩

theorem power_of_plain (kind : TokenKind) (plain : kind.binary? = none) (noCall : kind ≠ .lparen)
    (noIndex : kind ≠ .lbracket) : kind.power ≤ Power.lowest := by
  cases kind <;> first | contradiction | exact Nat.le_refl _

section Nested

variable {bound frames : Nat} {nested : Nat → Power → Production Node}

theorem group_yields (sound : Sound nested) : (group nested frames).Yields fun _ node tokens _ =>
    ∃ inner last, tokens = inner ++ [last] ∧ Expression .equality inner node ∧
      last.kind = .rparen := by
  refine (inside_yields sound fun node =>
    expect_yields frames .rparen (by decide) (pure_yields node)).mono ?_
  rintro start value tokens after - - ⟨node, inner, behind, middle, rfl, derived, -, rest⟩
  rcases rest with ⟨none, closed, rfl, rfl, rfl, -⟩
  exact ⟨inner, _, rfl, derived, closed⟩

theorem unary_yields (sound : Sound nested) (operator : Operator) :
    (unary nested frames operator).Yields fun start node tokens after =>
      ∃ operand, Expression .unary tokens operand ∧ node = .unary operator operand start.current.line ∧
        after.peek.kind.power ≤ Power.unary := by
  refine (current_yields fun token => advance_yields
    ((sound frames .unary (by decide) (by decide)).bind fun operand =>
      pure_yields (Node.unary operator operand token.line))).mono ?_
  rintro start value tokens after - - ⟨all, ⟨operand, middle, before, behind, rfl, read, rest⟩, shape⟩
  rcases read with ⟨stratum, tight, derived, loose⟩
  rcases rest with ⟨rfl, rfl, rfl⟩
  have order : Stratum.unary.rank ≤ stratum.rank := by
    revert tight
    cases stratum <;> decide
  rw [List.append_nil] at shape
  rw [shape (Expression.inside derived)]
  exact ⟨operand, derived.loosen .unary order, rfl, loose⟩

theorem braced_yields {α : Type} (sound : Sound nested) {next : Node → Production α}
    {account : Node → Account α} (continued : ∀ node, (next node).Yields (account node)) :
    (expect frames .lbrace >>= fun _ => block bound nested frames >>= next).Yields fun _ value tokens after =>
      ∃ node body behind middle, tokens = body ++ behind ∧ Block body node ∧
        account node middle value behind after := by
  refine (expect_yields frames .lbrace (by decide) ((block_yields sound).bind continued)).mono ?_
  rintro start value tokens after - - ⟨_, opened, rfl, node, middle, before, behind, rfl, derived, rest⟩
  exact ⟨node, start.advance.current :: before, behind, middle, rfl, derived opened, rest⟩

theorem alternative_yields (sound : Sound nested) :
    (alternative bound nested frames).Yields fun _ node tokens _ =>
      (node = none ∧ tokens = []) ∨ ∃ word body other, word.kind = .elseWord ∧
        tokens = word :: body ∧ Block body other ∧ node = some other := by
  refine (peek_yields fun token => choice_yields
    (fun _ => advance_yields (braced_yields sound fun node => pure_yields (some node)))
    (fun _ => pure_yields none)).mono ?_
  rintro start value tokens after - - (⟨word, _, ⟨node, body, _, middle, rfl, derived, rfl, rfl, -⟩,
    onward⟩ | ⟨-, rfl, rfl, -⟩)
  · have kind : start.advance.current.kind = .elseWord := word
    refine .inr ⟨start.advance.current, body, node, kind, ?_, derived, rfl⟩
    rw [onward (by rw [kind]; decide), List.append_nil]
  · exact .inl ⟨rfl, rfl⟩

theorem conditional_yields (sound : Sound nested) :
    (conditional bound nested frames).Yields fun start node tokens _ =>
      start.current.kind = .ifWord → Expression .primary (start.current :: tokens) node := by
  refine (current_yields fun word => expect_yields frames .lparen (by decide)
    (inside_yields sound fun condition => expect_yields frames .rparen (by decide)
      (braced_yields sound fun consequence => (alternative_yields sound).bind fun other =>
        pure_yields (Node.conditional condition consequence other word.line)))).mono ?_
  rintro start value tokens after - - ⟨_, opened, rfl, condition, test, _, left, rfl, tested, -, _,
    closed, rfl, consequence, body, _, right, rfl, chosen, other, _, behind, _, rfl, rest, rfl, rfl,
    rfl⟩ kind
  rw [List.append_nil]
  rcases rest with ⟨rfl, rfl⟩ | ⟨word, block, node, kept, rfl, rejected, rfl⟩
  · rw [List.append_nil]
    exact .conditional kind opened tested closed chosen
  · exact .alternative kind opened tested closed chosen kept rejected

theorem function_yields (sound : Sound nested) :
    (function bound nested frames).Yields fun start node tokens _ =>
      start.current.kind = .fnWord → Expression .primary (start.current :: tokens) node := by
  refine (current_yields fun word => expect_yields frames .lparen (by decide)
    ((above_yields 1 frames fun _ => parameters_yield).bind fun names => braced_yields sound fun body =>
      pure_yields (Node.function names body word.line))).mono ?_
  rintro start value tokens after - - ⟨_, opened, rfl, names, _, _, _, rfl, ⟨listed, last, rfl, closed,
    named⟩, block, body, _, _, rfl, derived, rfl, rfl, -⟩ kind
  rw [List.append_nil, List.append_assoc]
  exact .function kind opened named closed derived

theorem array_yields (sound : Sound nested) : (array bound nested frames).Yields fun start node tokens _ =>
    start.current.kind = .lbracket → Expression .primary (start.current :: tokens) node := by
  refine (current_yields fun token => (above_yields 2 frames fun _ =>
    expressions_yield sound .rbracket (by decide)).bind fun elements =>
      pure_yields (Node.array elements token.line)).mono ?_
  rintro start value tokens after - - ⟨elements, _, _, _, rfl, ⟨inner, last, rfl, closed, listed⟩, rfl,
    rfl, -⟩ kind
  rw [List.append_nil]
  exact .array kind listed closed

theorem map_yields (sound : Sound nested) : (map bound nested frames).Yields fun start node tokens _ =>
    start.current.kind = .lbrace → Expression .primary (start.current :: tokens) node := by
  refine (current_yields fun token => (pairs_yield sound bound).bind
    fun pairs => pure_yields (Node.map pairs token.line)).mono ?_
  rintro start value tokens after - - ⟨pairs, _, _, _, rfl, ⟨inner, last, rfl, closed, listed, -⟩, rfl,
    rfl, -⟩ kind
  rw [List.append_nil]
  exact .map kind listed closed

theorem integer_yields (token : Token) : (integer frames token).Yields fun _ node tokens _ =>
    ∀ value, Text.Numeral token.literal value →
      value ≤ 0x7fffffffffffffff ∧ node = .integer value token.line ∧ tokens = [] := by
  unfold integer
  cases shown : Text.readInteger token.literal with
  | error error => exact abandon_yields _ _
  | ok number =>
      refine (choice_yields (fun _ => fail_yields _ _ _ fun _ _ _ _ => False)
        (fun _ => pure_yields (Node.integer number token.line))).mono ?_
      rintro start node tokens after - - (⟨-, never⟩ | ⟨small, rfl, rfl, -⟩) value written
      · exact never.elim
      · rw [Text.readInteger_numeral token.literal value written] at shown
        cases shown
        rw [integerMax] at small
        exact ⟨by omega, rfl, rfl⟩

def OperandRead : Account Node := fun start node tokens after =>
  ∃ stratum : Stratum, stratum.floor = Power.call ∧
    Expression stratum (start.current :: tokens) node ∧ after.peek.kind.power ≤ stratum.ceiling

theorem OperandRead.primary {start after : Cursor} {node : Node} {tokens : List Token}
    (derived : Expression .primary (start.current :: tokens) node) :
    OperandRead start node tokens after :=
  ⟨.primary, rfl, derived, (TokenKind.power_range _).2⟩

theorem OperandRead.leaf (start : Cursor) (node : Node)
    (derived : Expression .primary [start.current] node) :
    ((pure node : Production Node) start).Yields start OperandRead := by
  refine (pure_yields node start).mono ?_
  rintro value tokens after - - ⟨rfl, rfl, -⟩
  exact .primary derived

theorem OperandRead.unary {start after : Cursor} {node : Node} {tokens : List Token}
    {operator : Operator} (sign : leading? start.current.kind = some operator)
    (read : ∃ operand, Expression .unary tokens operand ∧
      node = .unary operator operand start.current.line ∧ after.peek.kind.power ≤ Power.unary) :
    OperandRead start node tokens after := by
  rcases read with ⟨operand, derived, rfl, loose⟩
  exact ⟨.unary, rfl, .unary sign derived, loose⟩

theorem operand_yields (sound : Sound nested) : (operand bound nested frames).Yields OperandRead := by
  intro start
  cases kind : start.current.kind
  all_goals simp only [operand, bind_apply, current_apply, Outcome.read_bind, kind]
  case ident => exact OperandRead.leaf start _ (.identifier kind)
  case int =>
      refine (integer_yields start.current start).mono ?_
      intro node tokens after written stream read
      have member : start.current ∈ start.tokens := by
        rw [start.tokens_of_current (by rw [kind]; decide)]
        exact List.mem_cons_self
      rcases written start.current member kind with ⟨value, numeral⟩
      rcases read value numeral with ⟨small, rfl, rfl⟩
      exact .primary (.integer kind numeral small)
  case string => exact OperandRead.leaf start _ (.string kind)
  case trueWord => exact OperandRead.leaf start _ (.truth kind)
  case falseWord => exact OperandRead.leaf start _ (.falsehood kind)
  case bang =>
      refine (unary_yields sound .not start).mono ?_
      intro node tokens after written stream read
      exact .unary (by rw [kind]; rfl) read
  case minus =>
      refine (unary_yields sound .sub start).mono ?_
      intro node tokens after written stream read
      exact .unary (by rw [kind]; rfl) read
  case lparen =>
      refine (group_yields sound start).mono ?_
      rintro node tokens after - - ⟨inner, last, rfl, derived, closed⟩
      exact .primary (.group kind derived closed)
  case ifWord => exact (conditional_yields sound start).mono fun _ _ _ _ _ read => .primary (read kind)
  case fnWord => exact (function_yields sound start).mono fun _ _ _ _ _ read => .primary (read kind)
  case lbracket => exact (array_yields sound start).mono fun _ _ _ _ _ read => .primary (read kind)
  case lbrace => exact (map_yields sound start).mono fun _ _ _ _ _ read => .primary (read kind)
  all_goals exact fail_yields _ _ _ _ start

def ContinuationRead (left : Node) : Account Node := fun start node tokens after =>
  ∀ (stratum : Stratum) (before : List Token), Expression stratum before left →
    Power.lowest < start.current.kind.power → start.current.kind.power ≤ stratum.ceiling →
    ∃ longer : Stratum, (longer.floor = start.current.kind.power ∨ longer.floor = Power.call) ∧
      Expression longer (before ++ start.current :: tokens) node ∧
      after.peek.kind.power ≤ longer.ceiling

theorem ContinuationRead.application {start after : Cursor} {left node : Node} {tokens : List Token}
    (high : Power.call ≤ start.current.kind.power)
    (derived : ∀ before, Expression .application before left →
      Expression .application (before ++ start.current :: tokens) node) :
    ContinuationRead left start node tokens after := by
  intro stratum before leftDerived _ loose
  have order : Stratum.application.rank ≤ stratum.rank := by
    have tight := Nat.le_trans high loose
    revert tight
    cases stratum <;> decide
  exact ⟨.application, .inr rfl, derived before (leftDerived.loosen .application order),
    (TokenKind.power_range _).2⟩

theorem binary_yields (sound : Sound nested) (left : Node) (operator : Operator) (token : Token)
    (sign : token.kind.binary? = some operator) :
    (advance >>= fun _ => nested frames token.kind.power >>= fun right =>
      pure (Node.binary left operator right token.line)).Yields fun start node tokens after =>
        start.current = token → ContinuationRead left start node tokens after := by
  rcases binary?_stratum token.kind operator sign with ⟨own, stratified⟩
  rcases own.operator?_power token.kind operator stratified with ⟨floor, ceiling, below, -⟩
  have small : token.kind.power < Power.call := by
    refine Nat.lt_of_lt_of_le below ?_
    cases own <;> decide
  have other : own ≠ .primary := by
    rintro rfl
    cases stratified
  refine (advance_yields ((sound frames token.kind.power (TokenKind.power_range _).1 small).bind fun right =>
    pure_yields (Node.binary left operator right token.line))).mono ?_
  rintro start node tokens after - - ⟨_, ⟨right, _, inner, _, rfl, ⟨tight, above, rightDerived, loose⟩,
    rfl, rfl, rfl⟩, onward⟩ rfl stratum before leftDerived - inside
  rw [onward (Expression.inside rightDerived), List.append_nil]
  rw [ceiling] at inside loose
  rw [floor] at above
  -- the left part is as tight as the operator's stratum asks, or the loop would have gone on inside
  have leftOwn := leftDerived.loosen own (own.rank_of_ceiling stratum other inside)
  have rightOwn := rightDerived.loosen own.tighter (own.rank_of_floor tight above)
  exact ⟨own, .inl floor.symm, .binary leftOwn stratified rightOwn, loose⟩

theorem continuation_yields (sound : Sound nested) (left : Node) :
    (continuation bound nested frames left).Yields (ContinuationRead left) := by
  intro start
  by_cases called : start.current.kind = .lparen
  · simp only [continuation, bind_apply, current_apply, Outcome.read_bind, called]
    refine (((above_yields 2 frames fun _ => expressions_yield sound .rparen (by decide)).bind
      fun arguments => pure_yields (Node.call left arguments start.current.line)) start).mono ?_
    rintro node tokens after - - ⟨arguments, _, _, _, rfl, ⟨inner, last, rfl, closed, listed⟩, rfl, rfl,
      -⟩
    rw [List.append_nil]
    exact .application (by rw [called]; decide) fun before derived => .call derived called listed closed
  by_cases indexed : start.current.kind = .lbracket
  · simp only [continuation, bind_apply, current_apply, Outcome.read_bind, indexed]
    refine ((inside_yields sound fun position => expect_yields frames .rbracket (by decide)
      (pure_yields (Node.index left position start.current.line))) start).mono ?_
    rintro node tokens after - - ⟨position, inner, _, _, rfl, derived, -, _, closed, rfl, rfl, rfl, -⟩
    exact .application (by rw [indexed]; decide) fun before container =>
      .index container indexed derived closed
  cases sign : start.current.kind.binary? with
  | some operator =>
      have production : continuation bound nested frames left start =
          (advance >>= fun _ => nested frames start.current.kind.power >>= fun right =>
            pure (Node.binary left operator right start.current.line) : Production Node) start := by
        simp only [continuation, bind_apply, current_apply, Outcome.read_bind, sign]
      rw [production]
      exact (binary_yields sound left operator start.current sign start).mono
        fun _ _ _ _ _ read => read rfl
  | none =>
      have production : continuation bound nested frames left start =
          (pure left : Production Node) start := by
        simp only [continuation, bind_apply, current_apply, Outcome.read_bind, sign]
      rw [production]
      refine (pure_yields left start).mono ?_
      intro node tokens after written stream read stratum before derived tight
      exact absurd tight (Nat.not_lt.mpr (power_of_plain _ sign called indexed))

def ExtensionRead (power : Power) (left : Node) : Account Node := fun start node tokens after =>
  ∀ (stratum : Stratum) (before : List Token), Expression stratum before left →
    power < stratum.floor → start.peek.kind.power ≤ stratum.ceiling →
    ∃ longer : Stratum, power < longer.floor ∧ Expression longer (before ++ tokens) node ∧
      after.peek.kind.power ≤ power

theorem extend_yields (sound : Sound nested) (power : Power) (low : Power.lowest ≤ power)
    (high : power < Power.call) (fuel : Nat) (left : Node) :
    (extend bound nested frames power fuel left).Yields (ExtensionRead power left) := by
  induction fuel generalizing left with
  | zero => exact exhaust_yields _
  | succ fuel ih =>
      refine (peek_yields fun token => choice_yields
        (fun _ => advance_yields ((continuation_yields sound left).bind ih))
        (fun _ => pure_yields left)).mono ?_
      rintro start node tokens after - - (⟨tight, _, ⟨longer, middle, inner, behind, rfl, continued,
        extended⟩, onward⟩ | ⟨loose, rfl, rfl, rfl⟩) stratum before derived below inside
      · have above : power < start.advance.current.kind.power := tight
        have some : start.advance.current.kind ≠ .eof := by
          intro ended
          rw [ended] at above
          exact absurd above (Nat.not_lt.mpr low)
        rcases continued stratum before derived (Nat.lt_of_le_of_lt low above) inside with
          ⟨own, floor, longerDerived, stops⟩
        have reach : power < own.floor := by
          rcases floor with floor | floor
          · rw [floor]
            exact above
          · rw [floor]
            exact high
        -- the longer expression takes the place of the left part in the induction hypothesis
        rcases extended own _ longerDerived reach stops with ⟨final, least, finalDerived, ended⟩
        rw [List.append_assoc, List.cons_append] at finalDerived
        rw [onward some]
        exact ⟨final, least, finalDerived, ended⟩
      · rw [List.append_nil]
        exact ⟨stratum, below, derived, Nat.not_lt.mp loose⟩

end Nested

/-- Expressions are sound on every stack. -/
theorem expression_sound (bound limit : Nat) : Sound (expression bound limit) := by
  induction limit with
  | zero => exact fun frames power _ _ => exhaust_yields _
  | succ limit ih =>
      intro frames power low high
      rw [expression]
      split
      · exact ih frames power low high
      refine above_yields 3 frames fun left => room_yields 1 left ?_
      refine ((operand_yields ih).bind fun left => extend_yields ih power low high bound left).mono ?_
      rintro start node tokens after - - ⟨left, middle, before, behind, rfl, ⟨stratum, floor, derived,
        loose⟩, extended⟩
      exact extended stratum _ derived (floor ▸ high) loose

def StreamRead : Account (List Node) := fun start nodes _ after =>
  ∃ inner, start.tokens = inner ++ after.tokens ∧ Cursor.headKind after.tokens = .eof ∧
    Statements .eof inner nodes

theorem nextKind_append (inner rest : List Token) :
    Cursor.headKind (inner ++ rest) = nextKind inner (Cursor.headKind rest) := by
  cases inner <;> rfl

theorem statements_yield {nested : Nat → Power → Production Node} (sound : Sound nested)
    (frames fuel : Nat) : (statements nested frames fuel).Yields StreamRead := by
  induction fuel with
  | zero => exact exhaust_yields _
  | succ fuel ih =>
      intro start
      rw [statements_succ]
      by_cases ended : start.current.kind = .eof
      · rw [if_pos ended]
        exact ⟨.refl, fun _ _ => ⟨[], rfl, [], rfl, start.current_kind ▸ ended, .none⟩⟩
      rw [if_neg ended]
      have first := (statement_yields sound frames start).stream
      cases result : statement nested frames start with
      | abandoned error => trivial
      | tooDeep middle =>
          rw [result] at first
          exact first
      | failed middle =>
          rw [result] at first
          exact (ih _).after_failure (first.1.trans middle.resume_leads.advance) first.2
      | read node middle =>
          rw [result] at first
          refine (first.bind fun node middle => advance_yields
            (ih.bind fun rest => pure_yields (node :: rest)) middle).mono ?_
          rintro value tokens after - - ⟨node, middle, before, behind, rfl, ⟨stream, read⟩, _,
            ⟨nodes, _, _, _, -, ⟨inner, onward, ended, others⟩, rfl, -, rfl⟩, -⟩
          have next : middle.peek.kind = nextKind inner .eof := by
            rw [middle.peek_kind, ← middle.advance_tokens, onward, nextKind_append, ended]
          refine ⟨start.current :: before ++ inner, ?_, ended, read.follow next others⟩
          rw [start.tokens_of_current ‹_›, stream, ← middle.advance_tokens, onward]
          simp

theorem endless_unique {first second before behind : List Token} (left : Endless first)
    (right : Endless second) (firstEnds : Cursor.headKind before = .eof)
    (secondEnds : Cursor.headKind behind = .eof) (same : first ++ before = second ++ behind) :
    first = second := by
  induction first generalizing second with
  | nil =>
      cases second with
      | nil => rfl
      | cons token rest =>
          rw [List.nil_append] at same
          rw [same] at firstEnds
          exact absurd firstEnds (right token List.mem_cons_self)
  | cons token rest ih =>
      cases second with
      | nil =>
          rw [List.nil_append] at same
          rw [← same] at secondEnds
          exact absurd secondEnds (left token List.mem_cons_self)
      | cons other more =>
          rcases List.cons.inj same with ⟨rfl, tails⟩
          rw [ih (fun token member => left token (List.mem_cons_of_mem _ member))
            (fun token member => right token (List.mem_cons_of_mem _ member)) tails]

theorem clean_reading_derivable (limit : Nat) (tokens rest : List Token) (reading : Reading)
    (endless : Endless tokens) (ended : Cursor.headKind rest = .eof)
    (written : Written (tokens ++ rest))
    (result : readTokens limit (tokens ++ rest) = .ok reading) (clean : reading.diagnostics = []) :
    Program tokens reading.program := by
  have yields : (program limit (tokens ++ rest)).Yields (.ofTokens (tokens ++ rest)) StreamRead :=
    statements_yield (expression_sound _ limit) _ _ _
  rw [readTokens] at result
  cases outcome : program limit (tokens ++ rest) with
  | abandoned error =>
      simp only [outcome] at result
      cases result
  | tooDeep after =>
      simp only [outcome] at result
      cases result
      cases (List.append_eq_nil_iff.mp clean).2
  | failed after =>
      rw [outcome] at yields
      simp only [outcome] at result
      cases result
      have quiet : after.diagnostics = [] := clean
      have reported := yields.2
      rw [quiet] at reported
      exact absurd reported (Nat.not_lt_zero _)
  | read nodes after =>
      rw [outcome] at yields
      simp only [outcome] at result
      cases result
      have quiet : after.diagnostics = [] := clean
      rcases yields.2 (by rw [quiet]; rfl) written with ⟨-, -, inner, stream, stops, derived⟩
      have same := endless_unique endless derived.endless ended stops stream
      rw [same]
      exact ⟨nodes, derived, rfl⟩

/-- A map that is indexed: a comma stands behind the last pair, and the end token behind the list. -/
theorem indexed_map_derivable : Program
    [⟨.lbrace, "\x7b", 1, 0⟩, ⟨.string, "k", 1, 1⟩, ⟨.colon, ":", 1, 4⟩, ⟨.minus, "-", 1, 6⟩,
      ⟨.ident, "x", 1, 7⟩, ⟨.comma, ",", 1, 8⟩, ⟨.rbrace, "\x7d", 1, 9⟩, ⟨.lbracket, "[", 1, 10⟩,
      ⟨.int, "7", 1, 11⟩, ⟨.rbracket, "]", 1, 12⟩]
    (.program [.statement (.index (.map [(.string "k" 1, .unary .sub (.identifier ⟨"x", 1, 7⟩) 1)] 1)
      (.integer 7 1) 1) 1]) := by
  have seven : Text.Numeral "7" 7 := ⟨[7], by decide, by decide, by decide, rfl⟩
  refine clean_reading_derivable 1000 _ [.ending 1] ⟨_, []⟩ (by simp [Endless]) rfl ?_ rfl rfl
  simp only [Written, List.cons_append, List.nil_append, List.forall_mem_cons]
  simp [Token.ending, Exists.intro 7 seven]

end Marmoset.Grammar
