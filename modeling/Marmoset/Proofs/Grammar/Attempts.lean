import Marmoset.Proofs.Grammar.Locality
import Marmoset.Proofs.Grammar.Script

/-!
One report for every statement that fails. Statements are tried one after another and inside one another,
and each attempt that fails has reported one thing besides what was reported in the attempts inside it,
while an attempt that succeeds has reported nothing else. What was reported before stays in its place.
-/

namespace Marmoset

open Grammar Production

/-- An attempt to read a statement: where it begins, what it comes to, and the attempts made inside it. -/
inductive Attempt
  | mk (start : Cursor) (outcome : Outcome Node) (inner : List Attempt)

namespace Attempt

def start : Attempt → Cursor
  | mk start _ _ => start

def outcome : Attempt → Outcome Node
  | mk _ outcome _ => outcome

def inner : Attempt → List Attempt
  | mk _ _ inner => inner

def failed (attempt : Attempt) : Bool :=
  match attempt.outcome with
  | .failed _ => true
  | _ => false

def reports (attempt : Attempt) : List Diagnostic :=
  match attempt.outcome with
  | .read _ reached => reached.diagnostics.drop attempt.start.diagnostics.length
  | .failed reached => reached.diagnostics.drop attempt.start.diagnostics.length
  | _ => []

mutual

def all : Attempt → List Attempt
  | mk start outcome inner => mk start outcome inner :: allOf inner
termination_by structural attempt => attempt

def allOf : List Attempt → List Attempt
  | [] => []
  | attempt :: attempts => attempt.all ++ allOf attempts
termination_by structural attempts => attempts

end

theorem allOf_append (first second : List Attempt) :
    allOf (first ++ second) = allOf first ++ allOf second := by
  induction first with
  | nil => rfl
  | cons attempt attempts ih => rw [List.cons_append, allOf, allOf, ih, List.append_assoc]

end Attempt

/-- What is reported since a cursor: what the attempts made since have reported, and one thing more where
the outcome is a failure. -/
def Outcome.Accounts {α : Type} (start : Cursor) (attempts : List Attempt) : Outcome α → Prop
  | .read _ reached =>
      reached.diagnostics = start.diagnostics ++ attempts.flatMap Attempt.reports
  | .failed reached => ∃ own,
      reached.diagnostics = start.diagnostics ++ attempts.flatMap Attempt.reports ++ [own]
  | .tooDeep _ => False
  | .abandoned _ => False

/-- An attempt is made by the production for statements, and accounts for what is reported in it. -/
structure Attempt.Accounted (bound : Nat) (attempt : Attempt) : Prop where
  made : ∃ limit frames,
    attempt.outcome = statement (expression bound limit) frames attempt.start
  accounts : attempt.outcome.Accounts attempt.start attempt.inner

def Outcome.Accounted {α : Type} (bound : Nat) (start : Cursor) (attempts : List Attempt)
    (outcome : Outcome α) : Prop :=
  match outcome with
  | .tooDeep _ => True
  | .abandoned _ => True
  | _ => outcome.Accounts start attempts ∧ ∀ attempt ∈ Attempt.allOf attempts, attempt.Accounted bound

def Outcome.follow {α : Type} (onward : α → Cursor → List Attempt) (otherwise : Cursor → List Attempt) :
    Outcome α → List Attempt
  | .read value reached => onward value reached
  | .failed reached => otherwise reached
  | .tooDeep _ | .abandoned _ => []

namespace Script

def attempts {bound left last : Nat} {ample : Prop} {base : Int} {α : Type} {before after : Stance}
    {production : Production α} :
    Script bound ample base before left production after last → Cursor → List Attempt
  | .pure _ _, _ | .refuse _ _, _ | .room _ _ _, _ | .exhaust _, _ | .abandon _ _, _ => []
  | .current, _ | .advance, _ | .pass _ _, _ => []
  | .expect _ _ _ _, _ | .enter _ _, _ | .leave _ _, _ | .accept _ _, _ => []
  | .look continued, start => (continued start.current).attempts start
  | .peek continued, start => (continued start.peek).attempts start
  | .again onward, start | .keep _ _ onward, start | .opening _ onward, start | .stay onward, start =>
    onward.attempts start
  | @bind _ _ _ _ _ _ _ _ _ _ _ first _ begun continued, start => begun.attempts start ++
    (first start).follow (fun value => (continued value).attempts) fun _ => []
  | @choice _ _ _ _ _ _ _ _ condition decidable _ _ positive negative, start =>
    if holds : condition then (positive holds).attempts start else (negative holds).attempts start
  | .stop positive negative, start =>
    if start.current.kind = .eof then positive.attempts start else negative.attempts start
  | .close _ _ otherwise, start =>
    if start.current.kind = .rbrace then [] else otherwise.attempts start
  | @attempt _ _ _ _ limit frames _ _ _ _ _ _ begun onward otherwise, start =>
    let outcome := statement (expression bound limit) frames start
    .mk start outcome (begun.attempts start) ::
      outcome.follow (fun node => (onward node).attempts) otherwise.attempts
  | .resume onward, start => onward.attempts start.resume.advance
  | @mend _ _ _ base _ _ _ _ _ onward, start =>
    if start.current.kind = .rbrace ∧ start.depth < base then []
    else onward.attempts start.resume.advance
  | .body begun, start => (begun start.depth).attempts start.advance

end Script

namespace Outcome

variable {α : Type} {bound : Nat} {start middle : Cursor} {first second : List Attempt}

theorem accounted_quiet {reached : Cursor} {value : α} (quiet : reached.diagnostics = start.diagnostics) :
    (read value reached).Accounted bound start [] := by
  simp [Accounted, Accounts, Attempt.allOf, quiet]

theorem accounted_report (start : Cursor) (problem : Problem) (line : Int) :
    (failed (start.report problem line) : Outcome α).Accounted bound start [] := by
  simp [Accounted, Accounts, Attempt.allOf]

theorem Accounted.trans {outcome : Outcome α}
    (reported : middle.diagnostics = start.diagnostics ++ first.flatMap Attempt.reports)
    (accounted : ∀ attempt ∈ Attempt.allOf first, attempt.Accounted bound)
    (onward : outcome.Accounted bound middle second) : outcome.Accounted bound start (first ++ second) := by
  have both (accounted' : ∀ attempt ∈ Attempt.allOf second, attempt.Accounted bound) :
      ∀ attempt ∈ Attempt.allOf (first ++ second), attempt.Accounted bound := by
    rw [Attempt.allOf_append]
    exact List.forall_mem_append.mpr ⟨accounted, accounted'⟩
  cases outcome with
  | tooDeep reached => trivial
  | abandoned error => trivial
  | read value reached =>
      obtain ⟨behind, accounted'⟩ := onward
      exact ⟨by simpa [Accounts, reported] using behind, both accounted'⟩
  | failed reached =>
      obtain ⟨⟨own, behind⟩, accounted'⟩ := onward
      exact ⟨⟨own, by simpa [reported] using behind⟩, both accounted'⟩

end Outcome

theorem expect_accounted {bound : Nat} (frames : Nat) (kind : TokenKind) (start : Cursor) :
    (expect frames kind start).Accounted bound start [] := by
  rcases expect_cases frames kind start with ⟨-, found⟩ | ⟨-, missed⟩ | ⟨-, short⟩
  · exact found ▸ Outcome.accounted_quiet rfl
  · exact missed ▸ Outcome.accounted_report start _ _
  · exact short ▸ trivial

namespace Attempt

variable {bound limit frames : Nat} {start reached : Cursor} {inner : List Attempt} {outcome : Outcome Node}

theorem all_accounted (made : outcome = statement (expression bound limit) frames start)
    (accounts : outcome.Accounts start inner) (inside : ∀ attempt ∈ allOf inner, attempt.Accounted bound) :
    ∀ attempt ∈ allOf [mk start outcome inner], attempt.Accounted bound := by
  simp only [allOf, all, List.append_nil, List.forall_mem_cons]
  exact ⟨⟨⟨limit, frames, made⟩, accounts⟩, inside⟩

theorem reports_read {node : Node}
    (accounts : reached.diagnostics = start.diagnostics ++ inner.flatMap reports) :
    (mk start (.read node reached) inner).reports = inner.flatMap reports := by
  simp [reports, Attempt.outcome, Attempt.start, accounts]

theorem reports_failed {own : Diagnostic}
    (accounts : reached.diagnostics = start.diagnostics ++ inner.flatMap reports ++ [own]) :
    (mk start (.failed reached) inner).reports = inner.flatMap reports ++ [own] := by
  simp [reports, Attempt.outcome, Attempt.start, accounts]

end Attempt

/-- Whatever a script does, its attempts account for what is reported. -/
theorem Script.attempts_accounted {bound left last : Nat} {ample : Prop} {base : Int} {α : Type}
    {before after : Stance} {production : Production α}
    (script : Script bound ample base before left production after last) (start : Cursor) :
    (production start).Accounted bound start (script.attempts start) := by
  induction script generalizing start with
  | pure value order => exact Outcome.accounted_quiet rfl
  | refuse problem shallow => exact Outcome.accounted_report start problem _
  | room needed frames enough =>
      rw [Production.room]
      split
      · exact Outcome.accounted_quiet rfl
      · trivial
  | exhaust => trivial
  | abandon kind malformed => trivial
  | current => exact Outcome.accounted_quiet rfl
  | advance => exact Outcome.accounted_quiet rfl
  | pass => exact Outcome.accounted_quiet rfl
  | expect frames kind plain enough => exact expect_accounted frames kind start
  | enter frames enough => exact expect_accounted frames .lbrace start
  | leave frames enough => exact expect_accounted frames .rbrace start
  | accept kind plain =>
      rw [Production.accept]
      split <;> exact Outcome.accounted_quiet rfl
  | look continued ih => exact ih start.current start
  | peek continued ih => exact ih start.peek start
  | again onward ih => exact ih start
  | keep here plain onward ih => exact ih start
  | opening brace onward ih => exact ih start
  | stay onward ih => exact ih start
  | @bind _ _ _ _ _ _ _ _ _ first next begun continued ih ih' =>
      have accounted := ih start
      show ((first start).bind next).Accounted bound start (begun.attempts start ++
        (first start).follow (fun value => (continued value).attempts) fun _ => [])
      cases result : first start with
      | read value reached =>
          rw [result] at accounted
          exact .trans accounted.1 accounted.2 (ih' value reached)
      | failed reached =>
          rw [result] at accounted
          rw [Outcome.follow, List.append_nil]
          exact accounted
      | tooDeep reached => trivial
      | abandoned error => trivial
  | @choice _ _ _ _ _ _ condition decidable chosen rejected positive negative ih ih' =>
      show ((if condition then chosen else rejected) start).Accounted bound start
        (if holds : condition then (positive holds).attempts start else (negative holds).attempts start)
      split
      · next holds => exact ih holds start
      · next fails => exact ih' fails start
  | @stop _ _ _ _ _ _ chosen rejected positive negative ih ih' =>
      show (if start.current.kind = .eof then chosen start else rejected start).Accounted bound start
        (if start.current.kind = .eof then positive.attempts start else negative.attempts start)
      split
      · exact ih start
      · exact ih' start
  | @close _ _ _ _ value rest order otherwise ih =>
      show (if start.current.kind = .rbrace then .read value start else rest start).Accounted bound start
        (if start.current.kind = .rbrace then [] else otherwise.attempts start)
      split
      · exact Outcome.accounted_quiet rfl
      · exact ih start
  | @attempt _ _ limit frames _ _ _ _ next other begun onward otherwise ih ih' ih'' =>
      -- The attempt tells what is reported inside the statement, the report of a failure included, and
      -- what is tried behind the statement comes on top.
      have accounted := ih start
      show (recover (statement (expression bound limit) frames) next other start).Accounted bound start
        (.mk start (statement (expression bound limit) frames start) (begun.attempts start) ::
          (statement (expression bound limit) frames start).follow (fun node => (onward node).attempts)
            otherwise.attempts)
      rw [recover]
      cases result : statement (expression bound limit) frames start with
      | read node reached =>
          rw [result] at accounted
          obtain ⟨accounts, inside⟩ := accounted
          have reported : reached.diagnostics = start.diagnostics ++
              [Attempt.mk start (.read node reached) (begun.attempts start)].flatMap Attempt.reports := by
            rw [List.flatMap_singleton, Attempt.reports_read accounts]
            exact accounts
          exact .trans reported (Attempt.all_accounted result.symm accounts inside) (ih' node reached)
      | failed reached =>
          rw [result] at accounted
          obtain ⟨⟨own, accounts⟩, inside⟩ := accounted
          have reported : reached.diagnostics = start.diagnostics ++
              [Attempt.mk start (.failed reached) (begun.attempts start)].flatMap Attempt.reports := by
            rw [List.flatMap_singleton, Attempt.reports_failed accounts, ← List.append_assoc]
            exact accounts
          exact .trans reported (Attempt.all_accounted result.symm ⟨own, accounts⟩ inside) (ih'' reached)
      | tooDeep reached => trivial
      | abandoned error => trivial
  | resume onward ih => exact ih start.resume.advance
  | @mend _ base _ _ value loop order onward ih =>
      show (if start.current.kind = .rbrace ∧ start.depth < base then .read value start
          else loop start.resume.advance).Accounted bound start
        (if start.current.kind = .rbrace ∧ start.depth < base then []
          else onward.attempts start.resume.advance)
      split
      · exact Outcome.accounted_quiet rfl
      · exact ih start.resume.advance
  | @body _ _ limit frames _ _ begun ih =>
      have accounted := ih start.depth start.advance
      show (blockBody bound (expression bound limit) frames start).Accounted bound start
        ((begun start.depth).attempts start.advance)
      rw [blockBody]
      cases result : blockStatements (expression bound limit) frames start.depth bound start.advance with
      | read nodes reached | failed reached | tooDeep reached | abandoned error =>
          rw [result] at accounted
          exact accounted

namespace Attempt

variable {bound : Nat}

theorem Accounted.length_reports {attempt : Attempt} (accounted : attempt.Accounted bound) :
    attempt.reports.length =
      (attempt.inner.flatMap reports).length + if attempt.failed then 1 else 0 := by
  obtain ⟨start, outcome, inner⟩ := attempt
  have accounts : outcome.Accounts start inner := accounted.accounts
  cases outcome with
  | read node reached =>
      rw [reports_read accounts]
      rfl
  | failed reached =>
      obtain ⟨own, accounts⟩ := accounts
      rw [reports_failed accounts, List.length_append]
      rfl
  | tooDeep reached => exact accounts.elim
  | abandoned error => exact accounts.elim

mutual

/-- As many things are reported in an attempt as attempts fail, itself and all inside it. -/
theorem count_failed (attempt : Attempt) (accounted : ∀ each ∈ attempt.all, each.Accounted bound) :
    attempt.reports.length = attempt.all.countP failed := by
  obtain ⟨start, outcome, inner⟩ := attempt
  rw [all, List.forall_mem_cons] at accounted
  rw [accounted.1.length_reports, all, List.countP_cons, Attempt.inner, count_failed_all inner accounted.2]

theorem count_failed_all (attempts : List Attempt) (accounted : ∀ each ∈ allOf attempts, each.Accounted bound) :
    (attempts.flatMap reports).length = (allOf attempts).countP failed := by
  cases attempts with
  | nil => rfl
  | cons attempt attempts =>
      rw [allOf, List.forall_mem_append] at accounted
      rw [List.flatMap_cons, List.length_append, allOf, List.countP_append,
        count_failed attempt accounted.1, count_failed_all attempts accounted.2]

end

end Attempt

namespace Grammar

/-- The statements that are tried when a token stream is read, on a stack of `limit` frames. -/
def attempts (limit : Nat) (tokens : List Token) : List Attempt :=
  (Script.ofProgram False limit tokens False.elim).attempts (.ofTokens tokens)

/-- A reading that is not broken off has one diagnostic for every attempt to read a statement, at any depth,
that fails. Each attempt that fails reports one thing of its own, behind what was reported before it and in
the attempts inside it; each one that succeeds reports nothing of its own. -/
theorem one_report_per_failure (limit : Nat) (tokens : List Token) (written : Written tokens) :
    ∃ reading, readTokens limit tokens = .ok reading ∧ (¬ reading.BrokenOff →
      reading.diagnostics.length = (Attempt.allOf (attempts limit tokens)).countP Attempt.failed ∧
      reading.diagnostics = (attempts limit tokens).flatMap Attempt.reports ∧
      ∀ attempt ∈ Attempt.allOf (attempts limit tokens), attempt.Accounted (tokens.length + 1)) := by
  obtain ⟨reading, read⟩ := readTokens_total limit tokens written
  refine ⟨reading, read, fun kept => ?_⟩
  obtain ⟨after, result, same⟩ := program_of_readTokens read kept
  have accounted : (program limit tokens).Accounted (tokens.length + 1) (.ofTokens tokens)
      (attempts limit tokens) := (Script.ofProgram False limit tokens False.elim).attempts_accounted (.ofTokens tokens)
  rw [result] at accounted
  obtain ⟨accounts, inside⟩ := accounted
  have all : reading.diagnostics = (attempts limit tokens).flatMap Attempt.reports := by
    rw [← same]
    exact accounts
  exact ⟨by rw [all, Attempt.count_failed_all _ inside], all, inside⟩

/-- `fn() { let 1;` on two lines: a statement fails inside a block, and the block does not end. -/
def unclosedBody : List Token :=
  [⟨.fnWord, "fn", 1, 0⟩, ⟨.lparen, "(", 1, 2⟩, ⟨.rparen, ")", 1, 3⟩, ⟨.lbrace, "\x7b", 1, 5⟩,
    ⟨.letWord, "let", 2, 0⟩, ⟨.int, "1", 2, 4⟩, ⟨.semicolon, ";", 2, 5⟩]

/-- The attempt inside the block fails, and so does the one that it is made in. -/
theorem unclosedBody_reports :
    Written unclosedBody ∧ readTokens standardLimit unclosedBody =
        .ok ⟨[], [⟨.expected .ident .int, 2⟩, ⟨.expected .rbrace .eof, 2⟩]⟩ ∧
      (Attempt.allOf (attempts standardLimit unclosedBody)).countP Attempt.failed = 2 := by
  have one : Text.Numeral "1" 1 := ⟨[1], by decide, by decide, by decide, rfl⟩
  have written : Written unclosedBody := by
    simp only [Written, unclosedBody, List.forall_mem_cons]
    simp [Exists.intro 1 one]
  have shown : readTokens standardLimit unclosedBody =
      .ok ⟨[], [⟨.expected .ident .int, 2⟩, ⟨.expected .rbrace .eof, 2⟩]⟩ := by rfl
  obtain ⟨reading, read, reports⟩ := one_report_per_failure standardLimit unclosedBody written
  rw [shown] at read
  cases read
  refine ⟨written, shown, (reports ?_).1.symm⟩
  simp [Reading.BrokenOff]

end Grammar

end Marmoset
