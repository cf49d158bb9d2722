import Marmoset.Proofs.Grammar.Cursor

/-!
What a production can do to a cursor: it advances and it reports, and a failure has reported
something. From that follows what every production keeps. `Yields` adds what a production has read
when it reports nothing, and is built up production by production.
-/

namespace Marmoset

namespace Cursor

/-- A cursor that is reached from another one by advancing and reporting. -/
inductive Leads (start : Cursor) : Cursor → Prop
  | refl : Leads start start
  | advance {after : Cursor} (before : Leads start after) : Leads start after.advance
  | report {after : Cursor} (before : Leads start after) (problem : Problem) (line : Int) :
      Leads start (after.report problem line)

theorem Leads.trans {start middle after : Cursor} (first : start.Leads middle)
    (second : middle.Leads after) : start.Leads after := by
  induction second with
  | refl => exact first
  | advance _ ih => exact ih.advance
  | report _ problem line ih => exact ih.report problem line

theorem Leads.suffix {start after : Cursor} (leads : start.Leads after) :
    after.tokens <:+ start.tokens := by
  induction leads with
  | refl => exact List.suffix_refl _
  | advance _ ih => exact (List.tail_suffix _).trans ih
  | report _ _ _ ih => exact ih

theorem Leads.diagnostics {start after : Cursor} (leads : start.Leads after) :
    start.diagnostics <+: after.diagnostics := by
  induction leads with
  | refl => exact List.prefix_refl _
  | advance _ ih => exact ih
  | report _ _ _ ih => exact ih.trans (List.prefix_append _ _)

theorem Leads.endLine {start after : Cursor} (leads : start.Leads after) :
    after.endLine = start.endLine := by
  induction leads with
  | refl => rfl
  | advance _ ih => exact ih
  | report _ _ _ ih => exact ih

def counted (opened : Nat) : TokenKind → Nat
  | .lbrace => opened + 1
  | .rbrace => opened - 1
  | _ => opened

theorem skip_token (opened : Nat) (depth : Int) (token : Token) (rest : List Token) :
    skip opened depth (token :: rest) =
      if token.kind = .eof then (depth, token :: rest)
      else if counted opened token.kind = 0 ∧
          (token.kind = .semicolon ∨ headKind rest = .rbrace ∨ headKind rest = .eof) then
        (depth, token :: rest)
      else skip (counted opened token.kind) (depth + (headKind rest).braces) rest := by
  rw [skip]
  cases token.kind <;> rfl

theorem skip_cons (opened : Nat) (depth : Int) (token : Token) (rest : List Token) :
    skip opened depth (token :: rest) = (depth, token :: rest) ∨
      ∃ more, skip opened depth (token :: rest) =
        skip more (depth + (headKind rest).braces) rest := by
  rw [skip]
  split
  · exact .inl rfl
  · dsimp only
    split <;> split <;> first | exact .inl rfl | exact .inr ⟨_, rfl⟩

theorem skip_leads (tokens : List Token) (endLine depth : Int) (diagnostics : List Diagnostic)
    (opened : Nat) : Leads ⟨tokens, endLine, depth, diagnostics⟩
      ⟨(skip opened depth tokens).2, endLine, (skip opened depth tokens).1, diagnostics⟩ := by
  induction tokens generalizing opened depth with
  | nil => exact .refl
  | cons token rest ih =>
      rcases skip_cons opened depth token rest with stays | ⟨more, goes⟩
      · rw [stays]
        exact .refl
      · have step : Leads ⟨token :: rest, endLine, depth, diagnostics⟩
            ⟨rest, endLine, depth + (headKind rest).braces, diagnostics⟩ := by
          have moved : (⟨token :: rest, endLine, depth, diagnostics⟩ : Cursor).advance =
              ⟨rest, endLine, depth + (headKind rest).braces, diagnostics⟩ := by
            rw [advance, peek_kind, List.tail_cons]
          exact moved ▸ Leads.refl.advance
        rw [goes]
        exact step.trans (ih _ more)

theorem resume_leads (cursor : Cursor) : cursor.Leads cursor.resume :=
  skip_leads cursor.tokens cursor.endLine cursor.depth cursor.diagnostics 0

end Cursor

/-- Every integer literal of a token list is a numeral. -/
def Written (tokens : List Token) : Prop :=
  ∀ token ∈ tokens, token.kind = .int → ∃ value, Text.Numeral token.literal value

theorem Written.of_leads {start after : Cursor} (written : Written start.tokens)
    (leads : start.Leads after) : Written after.tokens :=
  fun token member kind => written token (leads.suffix.subset member) kind

abbrev Account (α : Type) := Cursor → α → List Token → Cursor → Prop

def Outcome.Yields {α : Type} (start : Cursor) (account : Account α) : Outcome α → Prop
  | .read value after => start.Leads after ∧
      (after.diagnostics.length = start.diagnostics.length → Written start.tokens →
        ∃ tokens, start.tokens.tail = tokens ++ after.tokens.tail ∧
          account start value tokens after)
  | .failed after => start.Leads after ∧ start.diagnostics.length < after.diagnostics.length
  | .tooDeep after => start.Leads after
  | .abandoned _ => True

/-- A production that only advances and reports, reports when it fails, and has read what the account
says when it succeeds without a report. -/
def Production.Yields {α : Type} (production : Production α) (account : Account α) : Prop :=
  ∀ start, (production start).Yields start account

namespace Outcome

variable {α β : Type} {start middle : Cursor} {outcome : Outcome α}

theorem Yields.bind {next : α → Production β} {first : Account α} {second : α → Account β}
    (yields : outcome.Yields start first)
    (continued : ∀ value middle, (next value middle).Yields middle (second value)) :
    (outcome.bind next).Yields start fun start value tokens after =>
      ∃ part middle before behind, tokens = before ++ behind ∧ first start part before middle ∧
        second part middle value behind after := by
  cases outcome with
  | failed after => exact yields
  | tooDeep after => exact yields
  | abandoned error => trivial
  | read part middle =>
      rcases yields with ⟨leads, clean⟩
      have rest := continued part middle
      have low := leads.diagnostics.length_le
      rw [read_bind]
      cases result : next part middle with
      | abandoned error => trivial
      | tooDeep after =>
          rw [result] at rest
          exact leads.trans rest
      | failed after =>
          rw [result] at rest
          exact ⟨leads.trans rest.1, Nat.lt_of_le_of_lt low rest.2⟩
      | read value after =>
          rw [result] at rest
          rcases rest with ⟨onward, quiet⟩
          have high := onward.diagnostics.length_le
          refine ⟨leads.trans onward, fun same written => ?_⟩
          rcases clean (by omega) written with ⟨before, left, firstly⟩
          rcases quiet (by omega) (written.of_leads leads) with ⟨behind, right, secondly⟩
          refine ⟨before ++ behind, ?_, part, middle, before, behind, rfl, firstly, secondly⟩
          rw [left, right, List.append_assoc]

theorem Yields.mono {first second : Account α} (yields : outcome.Yields start first)
    (weaker : ∀ value tokens after, Written start.tokens →
      start.tokens.tail = tokens ++ after.tokens.tail → first start value tokens after →
      second start value tokens after) : outcome.Yields start second := by
  cases outcome with
  | failed after => exact yields
  | tooDeep after => exact yields
  | abandoned error => trivial
  | read value after =>
      refine ⟨yields.1, fun same written => ?_⟩
      rcases yields.2 same written with ⟨tokens, stream, account⟩
      exact ⟨tokens, stream, weaker value tokens after written stream account⟩

theorem Yields.stream {account : Account α} (yields : outcome.Yields start account) :
    outcome.Yields start fun start value tokens after =>
      start.tokens.tail = tokens ++ after.tokens.tail ∧ account start value tokens after :=
  yields.mono fun _ _ _ _ stream holds => ⟨stream, holds⟩

theorem Yields.of_advance {account : Account α} (yields : outcome.Yields start.advance account) :
    outcome.Yields start fun start value tokens after =>
      ∃ behind, account start.advance value behind after ∧
        (start.advance.current.kind ≠ .eof → tokens = start.advance.current :: behind) := by
  have step : start.Leads start.advance := Cursor.Leads.refl.advance
  cases outcome with
  | abandoned error => trivial
  | tooDeep after => exact step.trans yields
  | failed after => exact ⟨step.trans yields.1, yields.2⟩
  | read value after =>
      refine ⟨step.trans yields.1, fun same written => ?_⟩
      rcases yields.2 same (written.of_leads step) with ⟨behind, stream, holds⟩
      -- at the end of the stream advancing passes over nothing, and the current token is an end token
      by_cases ended : start.tokens.tail = []
      · have nothing : after.tokens.tail = [] := by
          rw [Cursor.advance_tokens, ended] at stream
          exact (List.append_eq_nil_iff.mp stream.symm).2
        have last : start.advance.current.kind = .eof := by
          rw [Cursor.current_kind, Cursor.advance_tokens, ended]
          rfl
        exact ⟨[], by rw [ended, nothing]; rfl, behind, holds, fun inside => absurd last inside⟩
      · have first : start.tokens.tail = start.advance.current :: start.advance.tokens.tail := by
          cases tokens : start.tokens.tail with
          | nil => exact absurd tokens ended
          | cons token rest =>
              rw [Cursor.advance_tokens, tokens, start.advance.current_of_tokens token rest tokens]
              rfl
        refine ⟨start.advance.current :: behind, ?_, behind, holds, fun _ => rfl⟩
        rw [first, stream]
        rfl

theorem Yields.after_failure {first second : Account α} (leads : start.Leads middle)
    (reported : start.diagnostics.length < middle.diagnostics.length)
    (yields : outcome.Yields middle first) : outcome.Yields start second := by
  cases outcome with
  | abandoned error => trivial
  | tooDeep after => exact leads.trans yields
  | failed after => exact ⟨leads.trans yields.1, Nat.lt_trans reported yields.2⟩
  | read value after =>
      have more := yields.1.diagnostics.length_le
      exact ⟨leads.trans yields.1, fun same => by omega⟩

end Outcome

namespace Production

variable {α β : Type}

theorem Yields.bind {production : Production α} {next : α → Production β} {first : Account α}
    {second : α → Account β} (yields : production.Yields first)
    (continued : ∀ value, (next value).Yields (second value)) :
    (production >>= next).Yields fun start value tokens after =>
      ∃ part middle before behind, tokens = before ++ behind ∧ first start part before middle ∧
        second part middle value behind after :=
  fun start => (yields start).bind fun value middle => continued value middle

theorem Yields.mono {production : Production α} {first second : Account α}
    (yields : production.Yields first)
    (weaker : ∀ start value tokens after, Written start.tokens →
      start.tokens.tail = tokens ++ after.tokens.tail → first start value tokens after →
      second start value tokens after) : production.Yields second :=
  fun start => (yields start).mono (weaker start)

theorem pure_yields (value : α) : (pure value : Production α).Yields
    fun start result tokens after => result = value ∧ tokens = [] ∧ after = start :=
  fun _ => ⟨.refl, fun _ _ => ⟨[], rfl, rfl, rfl, rfl⟩⟩

theorem exhaust_yields (account : Account α) : (exhaust : Production α).Yields account :=
  fun _ => Cursor.Leads.refl

theorem refuse_yields (problem : Problem) (line : Int) (account : Account α) :
    (refuse problem line : Production α).Yields account := by
  intro start
  refine ⟨Cursor.Leads.refl.report problem line, ?_⟩
  rw [Cursor.report_diagnostics, List.length_append]
  exact Nat.lt_succ_self _

theorem room_yields (needed frames : Nat) {next : Production α} {account : Account α}
    (continued : next.Yields account) : (room needed frames >>= fun _ => next).Yields account := by
  intro start
  rcases Nat.lt_or_ge frames needed with scarce | enough
  · rw [bind_apply, room_short scarce]
    exact Cursor.Leads.refl
  · rw [bind_apply, room_apply enough]
    exact continued start

theorem above_yields (calls frames : Nat) {production : Nat → Production α} {account : Account α}
    (yields : ∀ frames, (production frames).Yields account) :
    (above calls frames production).Yields account :=
  room_yields calls frames (yields _)

theorem fail_yields (frames : Nat) (problem : Problem) (line : Int) (account : Account α) :
    (fail frames problem line : Production α).Yields account :=
  room_yields 2 frames (refuse_yields problem line account)

theorem abandon_yields (error : Text.IntegerError) (account : Account α) :
    (abandon error : Production α).Yields account :=
  fun _ => trivial

theorem choice_yields {condition : Prop} [Decidable condition] {first second : Production α}
    {whenTrue whenFalse : Account α} (chosen : condition → first.Yields whenTrue)
    (rejected : ¬ condition → second.Yields whenFalse) :
    (if condition then first else second).Yields fun start value tokens after =>
      (condition ∧ whenTrue start value tokens after) ∨
        (¬ condition ∧ whenFalse start value tokens after) := by
  by_cases holds : condition
  · rw [if_pos holds]
    exact (chosen holds).mono fun _ _ _ _ _ _ account => .inl ⟨holds, account⟩
  · rw [if_neg holds]
    exact (rejected holds).mono fun _ _ _ _ _ _ account => .inr ⟨holds, account⟩

theorem current_yields {next : Token → Production α} {account : Token → Account α}
    (continued : ∀ token, (next token).Yields (account token)) :
    (current >>= next).Yields fun start value tokens after =>
      account start.current start value tokens after :=
  fun start => (continued start.current start).mono fun _ _ _ _ _ holds => holds

theorem peek_yields {next : Token → Production α} {account : Token → Account α}
    (continued : ∀ token, (next token).Yields (account token)) :
    (peek >>= next).Yields fun start value tokens after =>
      account start.peek start value tokens after :=
  fun start => (continued start.peek start).mono fun _ _ _ _ _ holds => holds

theorem advance_yields {next : Production α} {account : Account α} (continued : next.Yields account) :
    (advance >>= fun _ => next).Yields fun start value tokens after =>
      ∃ behind, account start.advance value behind after ∧
        (start.advance.current.kind ≠ .eof → tokens = start.advance.current :: behind) :=
  fun start => (continued start.advance).of_advance

theorem expect_yields (frames : Nat) {next : Production α} {account : Account α} (kind : TokenKind)
    (inside : kind ≠ .eof) (continued : next.Yields account) :
    (expect frames kind >>= fun _ => next).Yields fun start value tokens after =>
      ∃ behind, start.advance.current.kind = kind ∧ tokens = start.advance.current :: behind ∧
        account start.advance value behind after := by
  intro start
  rw [bind_apply]
  rcases expect_cases frames kind start with ⟨same, found⟩ | ⟨-, missed⟩ | ⟨-, scarce⟩
  · rw [found]
    refine (continued start.advance).of_advance.mono ?_
    rintro value tokens after - - ⟨behind, holds, shape⟩
    have here : start.advance.current.kind = kind := same
    exact ⟨behind, here, shape (here ▸ inside), holds⟩
  · rw [missed]
    exact refuse_yields _ _ _ start
  · rw [scarce]
    exact Cursor.Leads.refl

theorem accept_yields (kind : TokenKind) (inside : kind ≠ .eof) :
    (accept kind).Yields fun start _ tokens after =>
      (start.advance.current.kind = kind ∧ tokens = [start.advance.current]) ∨
        (start.peek.kind ≠ kind ∧ tokens = [] ∧ after = start) := by
  intro start
  rw [accept]
  by_cases same : start.peek.kind = kind
  · rw [if_pos same]
    refine (pure_yields () start.advance).of_advance.mono ?_
    rintro value tokens after - - ⟨behind, ⟨-, rfl, -⟩, shape⟩
    have here : start.advance.current.kind = kind := same
    exact .inl ⟨here, shape (here ▸ inside)⟩
  · rw [if_neg same]
    exact ⟨.refl, fun _ _ => ⟨[], rfl, .inr ⟨same, rfl, rfl⟩⟩⟩

end Production

end Marmoset
