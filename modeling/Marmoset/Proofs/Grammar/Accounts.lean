import Marmoset.Proofs.Grammar.Progress

/-!
What lists, statements and blocks have read when nothing is reported, provided that the expressions
nested in them are sound. A statement that fails has reported it, so it cannot hide in a block that
goes on behind it.
-/

namespace Marmoset.Grammar

open Marmoset.Derivation Production

theorem continues_of_power (kind : TokenKind) (loose : kind.power ≤ Power.lowest) :
    continues kind = false := by
  cases kind <;> first | rfl | exact absurd loose (by decide)

theorem inside_of_begins (kind : TokenKind) (begins : beginsExpression kind = true) : kind ≠ .eof := by
  rintro rfl
  cases begins

theorem Expression.inside {stratum : Stratum} {token : Token} {tokens : List Token} {node : Node}
    (derived : Expression stratum (token :: tokens) node) : token.kind ≠ .eof := by
  rcases derived.start with ⟨first, rest, shape, begins⟩
  rcases List.cons.inj shape with ⟨rfl, -⟩
  exact inside_of_begins _ begins

theorem Listing.inside {token : Token} {tokens : List Token} {nodes : List Node}
    (derived : Listing (token :: tokens) nodes) : token.kind ≠ .eof := by
  rcases derived.start with ⟨empty, -⟩ | ⟨-, first, rest, shape, begins⟩
  · cases empty
  · rcases List.cons.inj shape with ⟨rfl, -⟩
    exact inside_of_begins _ begins

/-- An expression of a tighter stratum than the power, with no token behind it that binds tighter. -/
def ExpressionRead (power : Power) : Account Node := fun start node tokens after =>
  ∃ stratum : Stratum, power < stratum.floor ∧
    Expression stratum (start.current :: tokens) node ∧ after.peek.kind.power ≤ power

def Sound (nested : Nat → Power → Production Node) : Prop :=
  ∀ frames power, Power.lowest ≤ power → power < Power.call →
    (nested frames power).Yields (ExpressionRead power)

section Nested

variable {bound frames : Nat} {nested : Nat → Power → Production Node}

theorem whole_yields (sound : Sound nested) :
    (nested frames .lowest).Yields fun start node tokens after =>
      Expression .equality (start.current :: tokens) node ∧
        after.peek.kind.power ≤ Power.lowest := by
  refine (sound frames .lowest (Nat.le_refl _) (by decide)).mono ?_
  rintro start node tokens after - - ⟨stratum, -, derived, loose⟩
  exact ⟨derived.loosest, loose⟩

theorem inside_yields {α : Type} (sound : Sound nested) {next : Node → Production α}
    {account : Node → Account α} (continued : ∀ node, (next node).Yields (account node)) :
    (advance >>= fun _ => nested frames .lowest >>= next).Yields fun _ value tokens after =>
      ∃ node inner behind middle, tokens = inner ++ behind ∧ Expression .equality inner node ∧
        middle.peek.kind.power ≤ Power.lowest ∧ account node middle value behind after := by
  refine (advance_yields ((whole_yields sound).bind continued)).mono ?_
  rintro start value tokens after - - ⟨all, ⟨node, middle, before, behind, rfl, derived, rest⟩, shape⟩
  have inside := Expression.inside derived.1
  exact ⟨node, start.advance.current :: before, behind, middle, shape inside, derived.1, derived.2,
    rest⟩

def ItemsRead (close : TokenKind) : Account (List Node) := fun start nodes tokens _ =>
  ∃ inner last, tokens = inner ++ [last] ∧ last.kind = close ∧ nodes ≠ [] ∧
    Listing (start.current :: inner) nodes

theorem items_yields (sound : Sound nested) (close : TokenKind) (closing : close ≠ .eof)
    (fuel : Nat) : (items nested frames close fuel).Yields (ItemsRead close) := by
  induction fuel with
  | zero => exact exhaust_yields _
  | succ fuel ih =>
      refine ((whole_yields sound).bind fun item => peek_yields fun token => choice_yields
        (fun _ => advance_yields (advance_yields (ih.bind fun rest => pure_yields (item :: rest))))
        (fun _ => expect_yields frames close closing (pure_yields [item]))).mono ?_
      rintro start value tokens after - - ⟨item, middle, before, behind, rfl, ⟨derived, -⟩, rest⟩
      rcases rest with ⟨comma, second, ⟨third, ⟨nodes, _, inner, _, rfl, read, rfl, rfl, rfl⟩, shape⟩,
        outer⟩ | ⟨-, none, closed, rfl, rfl, rfl, -⟩
      · rcases read with ⟨more, last, rfl, closed, filled, listed⟩
        have apart : middle.advance.current.kind ≠ .eof := by
          have kind : middle.advance.current.kind = .comma := comma
          rw [kind]
          decide
        cases nodes with
        | nil => exact absurd rfl filled
        | cons node nodes =>
            refine ⟨before ++ middle.advance.current :: middle.advance.advance.current :: more, last,
              ?_, closed, List.cons_ne_nil _ _, .more derived comma listed⟩
            rw [outer apart, shape (Listing.inside listed), List.append_nil]
            simp
      · exact ⟨before, _, rfl, closed, List.cons_ne_nil _ _, .last derived⟩

theorem expressions_yield (sound : Sound nested) (close : TokenKind) (closing : close ≠ .eof) :
    (expressions bound nested frames close).Yields fun _ nodes tokens _ =>
      ∃ inner last, tokens = inner ++ [last] ∧ last.kind = close ∧ Listing inner nodes := by
  refine (room_yields 1 frames (peek_yields fun token => choice_yields
    (fun _ => advance_yields (pure_yields []))
    (fun _ => advance_yields (items_yields sound close closing bound)))).mono ?_
  rintro start value tokens after - - (⟨empty, none, ⟨rfl, rfl, -⟩, shape⟩ |
    ⟨-, behind, ⟨inner, last, rfl, closed, filled, listed⟩, shape⟩)
  · have closed : start.advance.current.kind = close := empty
    exact ⟨[], _, shape (closed ▸ closing), closed, .none⟩
  · exact ⟨start.advance.current :: inner, last, shape (Listing.inside listed), closed, listed⟩

def PairsRead : Account (List (Node × Node)) := fun start nodes tokens _ =>
  ∃ inner last, tokens = inner ++ [last] ∧ last.kind = .rbrace ∧ Pairs inner nodes ∧
    (start.peek.kind = .rbrace → inner = [] ∧ nodes = [])

theorem pairs_yield (sound : Sound nested) (fuel : Nat) : (pairs nested frames fuel).Yields PairsRead := by
  induction fuel with
  | zero => exact exhaust_yields _
  | succ fuel ih =>
      refine (peek_yields fun token => choice_yields
        (fun _ => expect_yields frames .rbrace (by decide) (pure_yields []))
        (fun _ => inside_yields sound fun key => expect_yields frames .colon (by decide)
          (inside_yields sound fun value => peek_yields fun next => choice_yields
            (fun _ => ih.bind fun rest => pure_yields ((key, value) :: rest))
            (fun _ => expect_yields frames .comma (by decide)
              (ih.bind fun rest => pure_yields ((key, value) :: rest)))))).mono ?_
      rintro start nodes tokens after - - (⟨empty, none, closed, rfl, rfl, rfl, -⟩ |
        ⟨filled, key, before, _, left, rfl, keyed, -, _, colon, rfl, value, inner, behind, right, rfl,
          valued, -, rest⟩)
      · exact ⟨[], _, rfl, closed, .none, fun _ => ⟨rfl, rfl⟩⟩
      · rcases rest with ⟨brace, pairs, _, more, _, rfl, read, rfl, rfl, -⟩ |
          ⟨-, _, comma, rfl, pairs, _, more, _, rfl, read, rfl, rfl, -⟩
        · rcases read with ⟨others, last, rfl, closed, -, none⟩
          rcases none brace with ⟨rfl, rfl⟩
          refine ⟨before ++ left.advance.current :: inner, last, ?_, closed, .last keyed colon valued,
            fun next => absurd next filled⟩
          simp
        · rcases read with ⟨others, last, rfl, closed, listed, -⟩
          refine ⟨before ++ left.advance.current :: (inner ++ right.advance.current :: others), last, ?_,
            closed, .more keyed colon valued comma listed, fun next => absurd next filled⟩
          simp

def MoreRead : Account (List Name) := fun start names tokens _ =>
  start.current.kind = .ident → ∃ inner last, tokens = inner ++ [last] ∧ last.kind = .rparen ∧
    Parameters (start.current :: inner) (nameOf start.current :: names)

theorem moreParameters_yield (fuel : Nat) : (moreParameters frames fuel).Yields MoreRead := by
  induction fuel with
  | zero => exact exhaust_yields _
  | succ fuel ih =>
      refine (peek_yields fun token => choice_yields
        (fun _ => advance_yields (expect_yields frames .ident (by decide) (current_yields fun name =>
          ih.bind fun names => pure_yields (nameOf name :: names))))
        (fun _ => expect_yields frames .rparen (by decide) (pure_yields []))).mono ?_
      rintro start value tokens after - - (⟨comma, _, ⟨_, named, rfl, names, _, more, _, rfl, read, rfl,
        rfl, -⟩, shape⟩ | ⟨-, _, closed, rfl, rfl, rfl, -⟩) ident
      · rcases read named with ⟨inner, last, rfl, closed, listed⟩
        have divided : start.advance.current.kind = .comma := comma
        refine ⟨start.advance.current :: start.advance.advance.current :: inner, last, ?_, closed,
          .more ident divided listed⟩
        rw [shape (by rw [divided]; decide)]
        simp
      · exact ⟨[], _, rfl, closed, .last ident⟩

theorem parameters_yield : (parameters bound frames).Yields fun _ names tokens _ =>
    ∃ inner last, tokens = inner ++ [last] ∧ last.kind = .rparen ∧ Parameters inner names := by
  refine (room_yields 1 frames (peek_yields fun token => choice_yields
    (fun _ => advance_yields (pure_yields []))
    (fun _ => expect_yields frames .ident (by decide) (current_yields fun name =>
      (moreParameters_yield bound).bind fun names =>
        pure_yields (nameOf name :: names))))).mono ?_
  rintro start value tokens after - - (⟨empty, _, ⟨rfl, rfl, -⟩, shape⟩ |
    ⟨-, _, named, rfl, names, _, more, _, rfl, read, rfl, rfl, -⟩)
  · have closed : start.advance.current.kind = .rparen := empty
    exact ⟨[], _, shape (by rw [closed]; decide), closed, .none⟩
  · rcases read named with ⟨inner, last, rfl, closed, listed⟩
    refine ⟨start.advance.current :: inner, last, ?_, closed, listed⟩
    simp

def StatementRead : Account Node := fun start node tokens after =>
  ∃ sentence, Sentence sentence node ∧
    ((∃ semicolon, start.current :: tokens = sentence ++ [semicolon] ∧
        semicolon.kind = .semicolon) ∨
      (start.current :: tokens = sentence ∧ continues after.peek.kind = false))

theorem sentence_ends {start after : Cursor} {first : Token} {inner behind : List Token} {node : Node}
    (derived : Sentence (first :: inner) node) (loose : start.peek.kind.power ≤ Power.lowest)
    (ended : (start.advance.current.kind = .semicolon ∧ behind = [start.advance.current]) ∨
      (start.peek.kind ≠ .semicolon ∧ behind = [] ∧ after = start)) :
    ∃ sentence, Sentence sentence node ∧
      ((∃ semicolon, first :: (inner ++ behind) = sentence ++ [semicolon] ∧
          semicolon.kind = .semicolon) ∨
        (first :: (inner ++ behind) = sentence ∧ continues after.peek.kind = false)) := by
  refine ⟨first :: inner, derived, ?_⟩
  rcases ended with ⟨kind, rfl⟩ | ⟨-, rfl, rfl⟩
  · exact .inl ⟨_, rfl, kind⟩
  · exact .inr ⟨by rw [List.append_nil], continues_of_power _ loose⟩

theorem binding_yields (sound : Sound nested) : (binding nested frames).Yields fun start node tokens after =>
    start.current.kind = .letWord → StatementRead start node tokens after := by
  refine (current_yields fun word => expect_yields frames .ident (by decide) (current_yields fun name =>
    expect_yields frames .assign (by decide) (inside_yields sound fun value =>
      (accept_yields .semicolon (by decide)).bind fun _ =>
        pure_yields (Node.binding (nameOf name) value word.line)))).mono ?_
  rintro start node tokens after - - ⟨_, named, rfl, _, assigned, rfl, value, inner, behind, middle,
    rfl, derived, loose, _, final, ending, _, rfl, ended, rfl, rfl, rfl⟩ kind
  rw [List.append_nil]
  exact sentence_ends (.binding kind named assigned derived) loose ended

theorem returning_yields (sound : Sound nested) :
    (returning nested frames).Yields fun start node tokens after =>
      start.current.kind = .returnWord → StatementRead start node tokens after := by
  refine (room_yields 1 frames (current_yields fun word => inside_yields sound fun value =>
    (accept_yields .semicolon (by decide)).bind fun _ =>
      pure_yields (Node.returning value word.line))).mono ?_
  rintro start node tokens after - - ⟨value, inner, behind, middle, rfl, derived, loose, _, final,
    ending, _, rfl, ended, rfl, rfl, rfl⟩ kind
  rw [List.append_nil]
  exact sentence_ends (.returning kind derived) loose ended

theorem bareExpression_yields (sound : Sound nested) : (bareExpression nested frames).Yields StatementRead := by
  refine (current_yields fun token => (whole_yields sound).bind fun expression =>
    (accept_yields .semicolon (by decide)).bind fun _ =>
      pure_yields (Node.statement expression token.line)).mono ?_
  rintro start node tokens after - - ⟨value, middle, inner, behind, rfl, ⟨derived, loose⟩, _, final,
    ending, _, rfl, ended, rfl, rfl, rfl⟩
  rw [List.append_nil]
  exact sentence_ends (.bare derived) loose ended

theorem statement_yields (sound : Sound nested) (frames : Nat) :
    (statement nested frames).Yields StatementRead := by
  refine above_yields 4 frames fun frames start => ?_
  cases kind : start.current.kind
  all_goals simp only [bind_apply, current_apply, Outcome.read_bind, kind]
  case letWord => exact (binding_yields sound start).mono fun _ _ _ _ _ read => read kind
  case returnWord => exact (returning_yields sound start).mono fun _ _ _ _ _ read => read kind
  all_goals exact bareExpression_yields sound start

theorem StatementRead.follow {start middle : Cursor} {node : Node} {before inner : List Token}
    {nodes : List Node} {follow : TokenKind} (read : StatementRead start node before middle)
    (next : middle.peek.kind = nextKind inner follow) (others : Statements follow inner nodes) :
    Statements follow (start.current :: before ++ inner) (node :: nodes) := by
  rcases read with ⟨sentence, derived, ⟨semicolon, shape, kind⟩ | ⟨rfl, stops⟩⟩
  · rw [shape, List.append_assoc]
    exact .ended derived kind others
  · rw [next] at stops
    exact .unended derived stops others

def BlockRead : Account (List Node) := fun start nodes tokens _ =>
  ∃ inner last, start.current :: tokens = inner ++ [last] ∧ last.kind = .rbrace ∧
    Statements .rbrace inner nodes

theorem BlockRead.first {start : Cursor} {nodes : List Node} {tokens : List Token}
    {inner : List Token} {last : Token} (shape : start.current :: tokens = inner ++ [last])
    (closed : last.kind = .rbrace) (derived : Statements .rbrace inner nodes) :
    start.current.kind = nextKind inner .rbrace ∧ start.current.kind ≠ .eof := by
  rcases derived.start with rfl | ⟨token, rest, rfl, begins⟩
  · rcases List.cons.inj shape with ⟨same, -⟩
    rw [same, closed]
    exact ⟨rfl, by decide⟩
  · rcases List.cons.inj shape with ⟨same, -⟩
    rw [same]
    exact ⟨rfl, (begins_plain token.kind begins).2.2.2.2.2⟩

theorem blockStatements_yield (sound : Sound nested) (depth : Int) (fuel : Nat) :
    (blockStatements nested frames depth fuel).Yields BlockRead := by
  induction fuel with
  | zero => exact exhaust_yields _
  | succ fuel ih =>
      intro start
      rw [blockStatements_succ]
      by_cases closed : start.current.kind = .rbrace
      · rw [if_pos closed]
        exact ⟨.refl, fun _ _ => ⟨[], rfl, [], start.current, rfl, closed, .none⟩⟩
      rw [if_neg closed]
      by_cases ended : start.current.kind = .eof
      · rw [if_pos ended]
        exact fail_yields _ _ _ _ start
      rw [if_neg ended]
      have first := statement_yields sound frames start
      cases result : statement nested frames start with
      | abandoned error => trivial
      | tooDeep middle =>
          rw [result] at first
          exact first
      | failed middle =>
          rw [result] at first
          -- the block may end or go on here, but the report of the failure stays behind
          rcases first with ⟨leads, reported⟩
          dsimp only
          split
          · exact Outcome.Yields.after_failure leads reported (pure_yields [] middle)
          · exact (ih _).after_failure (leads.trans middle.resume_leads.advance) reported
      | read node middle =>
          rw [result] at first
          refine (first.bind fun node middle => advance_yields
            (ih.bind fun rest => pure_yields (node :: rest)) middle).mono ?_
          rintro value tokens after - - ⟨node, middle, before, behind, rfl, read, _,
            ⟨nodes, _, rest, _, rfl, ⟨inner, last, shape, closed, others⟩, rfl, rfl, rfl⟩, onward⟩
          rcases BlockRead.first shape closed others with ⟨next, inside⟩
          refine ⟨start.current :: before ++ inner, last, ?_, closed, read.follow next others⟩
          rw [onward inside, List.append_nil, shape]
          simp

theorem blockBody_yields (sound : Sound nested) :
    (blockBody bound nested frames).Yields fun start node tokens _ =>
      start.current.kind = .lbrace → Block (start.current :: tokens) node := by
  intro start
  refine ((blockStatements_yield sound start.depth bound start.advance).bind fun nodes =>
    pure_yields (Node.block nodes start.current.line)).of_advance.mono ?_
  rintro node tokens after - - ⟨_, ⟨nodes, _, before, _, rfl, ⟨inner, last, shape, closed, derived⟩,
    rfl, rfl, rfl⟩, onward⟩ opened
  rw [onward (BlockRead.first shape closed derived).2, List.append_nil, shape]
  exact .braces opened derived closed

theorem block_yields (sound : Sound nested) :
    (block bound nested frames).Yields fun start node tokens _ =>
      start.current.kind = .lbrace → Block (start.current :: tokens) node :=
  above_yields 2 frames fun left => room_yields 1 left (blockBody_yields sound)

end Nested

end Marmoset.Grammar
