import Marmoset.Proofs.Grammar.Derivation

/-!
How a cursor passes over the tokens of a phrase, and how the strata of the grammar lie among the
powers of tokens: `floor` is the least power that a stratum's operators reach, and `ceiling` the
greatest power of a token that may stand behind a phrase of the stratum.
-/

namespace Marmoset

open Marmoset.Derivation

namespace Cursor

@[simp] theorem advance_tokens (cursor : Cursor) : cursor.advance.tokens = cursor.tokens.tail := rfl

@[simp] theorem advance_diagnostics (cursor : Cursor) :
    cursor.advance.diagnostics = cursor.diagnostics := rfl

@[simp] theorem report_tokens (cursor : Cursor) (problem : Problem) (line : Int) :
    (cursor.report problem line).tokens = cursor.tokens := rfl

@[simp] theorem report_diagnostics (cursor : Cursor) (problem : Problem) (line : Int) :
    (cursor.report problem line).diagnostics = cursor.diagnostics ++ [⟨problem, line⟩] := rfl

theorem current_of_tokens (cursor : Cursor) (token : Token) (rest : List Token)
    (start : cursor.tokens = token :: rest) : cursor.current = token := by
  rw [current, start]
  rfl

theorem peek_of_tokens (cursor : Cursor) (token : Token) (rest : List Token)
    (next : cursor.tokens.tail = token :: rest) : cursor.peek = token := by
  rw [peek, next]
  rfl

theorem current_kind (cursor : Cursor) : cursor.current.kind = headKind cursor.tokens := by
  unfold current headKind
  cases cursor.tokens <;> rfl

theorem peek_kind (cursor : Cursor) : cursor.peek.kind = headKind cursor.tokens.tail := by
  unfold peek headKind
  cases cursor.tokens.tail <;> rfl

theorem tokens_of_current (cursor : Cursor) (inside : cursor.current.kind ≠ .eof) :
    cursor.tokens = cursor.current :: cursor.tokens.tail := by
  cases stream : cursor.tokens with
  | nil =>
      rw [current_kind, stream] at inside
      exact absurd rfl inside
  | cons token rest => rw [current_of_tokens cursor token rest stream, List.tail_cons]

/-- Reading from `start` stops on the token before `rest` and has reported nothing. -/
structure Stops (start after : Cursor) (rest : List Token) : Prop where
  rest : after.tokens.tail = rest
  quiet : after.diagnostics = start.diagnostics

theorem Stops.trans {start middle after : Cursor} {behind rest : List Token}
    (first : start.Stops middle behind) (second : middle.Stops after rest) :
    start.Stops after rest :=
  ⟨second.rest, second.quiet.trans first.quiet⟩

theorem Stops.of_advance {start after : Cursor} {rest : List Token}
    (stops : start.advance.Stops after rest) : start.Stops after rest :=
  ⟨stops.rest, stops.quiet⟩

theorem Stops.advance {start after : Cursor} {token : Token} {rest : List Token}
    (stops : start.Stops after (token :: rest)) : start.Stops after.advance rest :=
  ⟨by rw [advance_tokens, stops.rest, List.tail_cons], stops.quiet⟩

end Cursor

theorem Outcome.read_of_bind {α β : Type} {outcome : Outcome α} {next : α → Production β} {value : β}
    {after : Cursor} (read : outcome.bind next = .read value after) :
    ∃ first middle, outcome = .read first middle ∧ next first middle = .read value after := by
  cases outcome with
  | read first middle => exact ⟨first, middle, rfl, read⟩
  | failed | tooDeep | abandoned => cases read

namespace Production

@[simp] theorem current_apply (cursor : Cursor) : current cursor = .read cursor.current cursor := rfl

@[simp] theorem peek_apply (cursor : Cursor) : peek cursor = .read cursor.peek cursor := rfl

@[simp] theorem advance_apply (cursor : Cursor) : advance cursor = .read () cursor.advance := rfl

theorem room_apply {needed frames : Nat} (enough : needed ≤ frames) (cursor : Cursor) :
    room needed frames cursor = .read () cursor := if_pos enough

theorem room_short {needed frames : Nat} (scarce : frames < needed) (cursor : Cursor) :
    room needed frames cursor = .tooDeep cursor := if_neg (Nat.not_le_of_lt scarce)

theorem read_of_room {α : Type} {needed frames : Nat} {next : Production α} {value : α}
    {cursor after : Cursor} (read : (room needed frames >>= fun _ => next) cursor = .read value after) :
    next cursor = .read value after := by
  rcases Outcome.read_of_bind read with ⟨_, _, filled, read⟩
  rw [room] at filled
  split at filled
  · cases filled
    exact read
  · cases filled

theorem above_apply {α : Type} {calls frames : Nat} (enough : calls ≤ frames)
    (production : Nat → Production α) (cursor : Cursor) :
    above calls frames production cursor = production (frames - calls) cursor := by
  rw [above, bind_apply, room_apply enough]
  rfl

theorem fail_apply {α : Type} {frames : Nat} (enough : 2 ≤ frames) (problem : Problem) (line : Int)
    (cursor : Cursor) :
    (fail frames problem line : Production α) cursor = .failed (cursor.report problem line) := by
  rw [fail, bind_apply, room_apply enough]
  rfl

@[simp] theorem choice_apply {α : Type} (condition : Prop) [Decidable condition]
    (first second : Production α) (cursor : Cursor) :
    (if condition then first else second) cursor =
      if condition then first cursor else second cursor := by
  split <;> rfl

theorem fail_cases {α : Type} (frames : Nat) (problem : Problem) (line : Int) (cursor : Cursor) :
    (fail frames problem line : Production α) cursor = .failed (cursor.report problem line) ∨
      (frames < 2 ∧ (fail frames problem line : Production α) cursor = .tooDeep cursor) := by
  rcases Nat.lt_or_ge frames 2 with scarce | enough
  · exact .inr ⟨scarce, by rw [fail, bind_apply, room_short scarce]; rfl⟩
  · exact .inl (fail_apply enough problem line cursor)

theorem expect_cases (frames : Nat) (kind : TokenKind) (cursor : Cursor) :
    (cursor.peek.kind = kind ∧ expect frames kind cursor = .read () cursor.advance) ∨
      (cursor.peek.kind ≠ kind ∧ expect frames kind cursor =
        .failed (cursor.report (.expected kind cursor.peek.kind) cursor.peek.line)) ∨
      (frames < 3 ∧ expect frames kind cursor = .tooDeep cursor) := by
  rcases Nat.lt_or_ge frames 2 with scarce | enough
  · exact .inr (.inr ⟨Nat.lt_succ_of_lt scarce, by rw [expect, bind_apply, room_short scarce]; rfl⟩)
  simp only [expect, bind_apply, room_apply enough, peek_apply, choice_apply, Outcome.read_bind]
  split
  · next same => exact .inl ⟨same, rfl⟩
  · next other =>
      rcases fail_cases (frames - 1) (.expected kind cursor.peek.kind) cursor.peek.line cursor with
        missed | ⟨scarce, short⟩
      · exact .inr (.inl ⟨other, missed⟩)
      · exact .inr (.inr ⟨by omega, short⟩)

theorem expect_read {frames : Nat} (enough : 2 ≤ frames) (kind : TokenKind) (cursor : Cursor)
    (token : Token) (rest : List Token) (next : cursor.tokens.tail = token :: rest)
    (same : token.kind = kind) : expect frames kind cursor = .read () cursor.advance := by
  have found : cursor.peek.kind = kind := by rw [cursor.peek_of_tokens token rest next, same]
  simp only [expect, bind_apply, room_apply enough, peek_apply, choice_apply, Outcome.read_bind,
    if_pos found, advance_apply]

end Production

namespace Derivation.Stratum

def floor : Stratum → Power
  | equality => .equality
  | comparison => .comparison
  | sum => .sum
  | product => .product
  | unary | application | primary => .call

def ceiling : Stratum → Power
  | equality => .equality
  | comparison => .comparison
  | sum => .sum
  | product => .product
  | unary => .unary
  | application | primary => .index

theorem floor_tighter (stratum : Stratum) : stratum.floor ≤ stratum.tighter.floor := by
  cases stratum <;> decide

theorem ceiling_tighter (stratum : Stratum) : stratum.ceiling ≤ stratum.tighter.ceiling := by
  cases stratum <;> decide

theorem lt_floor_le_ceiling (stratum : Stratum) (power : Power) (below : power < stratum.floor) :
    power ≤ stratum.ceiling := by
  have near : stratum.floor ≤ stratum.ceiling + 1 := by cases stratum <;> decide
  exact Nat.le_of_lt_succ (Nat.lt_of_lt_of_le below near)

theorem operator?_power (stratum : Stratum) (kind : TokenKind) (operator : Operator)
    (sign : stratum.operator? kind = some operator) :
    kind.power = stratum.floor ∧ kind.power = stratum.ceiling ∧ kind.power < stratum.tighter.floor ∧
      kind.binary? = some operator := by
  cases stratum <;> cases kind <;> simp [operator?] at sign <;> subst sign <;> decide

end Derivation.Stratum

end Marmoset
