import Marmoset.Proofs.Grammar.Rounds
import Marmoset.Proofs.Grammar.Script
import Marmoset.Proofs.Grammar.Stack

/-!
Reading comes to an end on a stack that is linear in the number of tokens. The script of a production
bounds the tokens that are left. Every round of a loop passes over one of them, so no bound on a loop is
met; and every nested expression begins at least one token behind the one that it is nested in, so there
are no more levels than tokens, and one for the end.
-/

namespace Marmoset

/-- Fewer than `left` tokens are left, the current one among them where a phrase begins on it. -/
def Stance.Bounds (left : Nat) : Stance → Cursor → Prop
  | .fresh _, cursor => cursor.tokens.length < left
  | .on token _, cursor => cursor.tokens.length < left ∧ cursor.current = token
  | .inside _, cursor => cursor.tokens.length < left ∧ cursor.current.kind ≠ .eof
  | .held _, cursor | .failed _, cursor | .ended, cursor => cursor.tokens.tail.length < left
  | .before token _, cursor => cursor.tokens.tail.length < left ∧ cursor.peek = token

/-- The integers among the tokens that are left are numerals, and nothing was found to nest too deep. -/
structure Cursor.Legible (cursor : Cursor) : Prop where
  written : Written cursor.tokens
  unbroken : ∀ diagnostic ∈ cursor.diagnostics, diagnostic.problem ≠ .nestedTooDeep

structure Cursor.Ready (stance : Stance) (left : Nat) (cursor : Cursor) : Prop where
  legible : cursor.Legible
  few : stance.Bounds left cursor

/-- The phrase was read, or it was not and a diagnostic says why: the stack sufficed, and every literal
gave an integer. -/
def Outcome.Completes {α : Type} (after : Stance) (last : Nat) : Outcome α → Prop
  | .read _ cursor => cursor.Ready after last
  | .failed cursor => cursor.Legible
  | .tooDeep _ => False
  | .abandoned _ => False

open Grammar Production

namespace Cursor

variable {left last : Nat} {stance : Stance} {token : Token} {opened : Option Nat} {cursor after : Cursor}

theorem Legible.reached (legible : cursor.Legible) (leads : cursor.Leads after)
    (quiet : after.diagnostics = cursor.diagnostics) : after.Legible :=
  ⟨legible.written.of_leads leads, quiet ▸ legible.unbroken⟩

theorem Legible.advance (legible : cursor.Legible) : cursor.advance.Legible :=
  legible.reached (.advance .refl) rfl

theorem Legible.report (legible : cursor.Legible) {problem : Problem} (shallow : problem ≠ .nestedTooDeep)
    (line : Int) : (cursor.report problem line).Legible := by
  refine ⟨legible.written, ?_⟩
  rw [report_diagnostics, List.forall_mem_append, List.forall_mem_singleton]
  exact ⟨legible.unbroken, shallow⟩

theorem passed_length (few : cursor.tokens.length < left) (inside : cursor.current.kind ≠ .eof) :
    cursor.tokens.tail.length < left - 1 := by
  rw [cursor.tokens_of_current inside, List.length_cons] at few
  omega

theorem Ready.positive (ready : cursor.Ready stance left) : 0 < left := by
  have few := ready.few
  cases stance with
  | fresh opened | held opened | failed opened | ended => exact Nat.zero_lt_of_lt few
  | on token opened | inside opened | before token opened => exact Nat.zero_lt_of_lt few.1

theorem Ready.loosen (ready : cursor.Ready stance left) (order : left ≤ last) :
    cursor.Ready stance last := by
  have few := ready.few
  refine ⟨ready.legible, ?_⟩
  cases stance with
  | fresh opened | held opened | failed opened | ended => exact Nat.lt_of_lt_of_le few order
  | on token opened | inside opened | before token opened =>
      exact ⟨Nat.lt_of_lt_of_le few.1 order, few.2⟩

theorem Ready.advance {later : Option Nat} (ready : cursor.Ready (.held opened) left) :
    cursor.advance.Ready (.fresh later) left :=
  ⟨ready.legible.advance, ready.few⟩

theorem Ready.pass {later : Option Nat} (ready : cursor.Ready (.held opened) left)
    (inside : cursor.peek.kind ≠ .eof) : cursor.advance.Ready (.held later) (left - 1) := by
  have few : cursor.advance.tokens.length < left := ready.few
  exact ⟨ready.legible.advance, passed_length few inside⟩

theorem Ready.resume {later : Option Nat} (ready : cursor.Ready (.failed opened) left) :
    cursor.resume.advance.Ready (.fresh later) left := by
  have leads := cursor.resume_leads
  have shorter : cursor.resume.tokens.tail.length ≤ cursor.tokens.tail.length := by
    rw [List.length_tail, List.length_tail]
    exact Nat.sub_le_sub_right leads.suffix.length_le 1
  exact ⟨ready.legible.reached leads.advance rfl, Nat.lt_of_le_of_lt shorter ready.few⟩

end Cursor

section Script

variable {bound left last : Nat} {ample : Prop} {base : Int} {before after : Stance} {opened : Option Nat}
  {cursor : Cursor}

theorem expect_completes {later : Option Nat} (ready : cursor.Ready (.held opened) left) {frames : Nat}
    (enough : 3 ≤ frames) {kind : TokenKind} (inside : kind ≠ .eof) :
    (expect frames kind cursor).Completes (.held later) (left - 1) := by
  rcases expect_cases frames kind cursor with ⟨same, found⟩ | ⟨-, missed⟩ | ⟨scarce, -⟩
  · exact found ▸ ready.pass (same ▸ inside)
  · exact missed ▸ ready.legible.report (by simp) _
  · exact absurd enough (Nat.not_le_of_lt scarce)

/-- Where the stack is ample, a script comes to its end. -/
theorem Script.completes {α : Type} {production : Production α}
    (script : Script bound ample base before left production after last) (plenty : ample)
    (ready : cursor.Ready before left) : (production cursor).Completes after last := by
  induction script generalizing cursor with
  | pure value order => exact ready.loosen order
  | refuse problem shallow => exact ready.legible.report shallow _
  | room needed frames enough =>
      rw [room_apply (enough plenty ready.positive)]
      exact ready
  | exhaust none => exact absurd ready.positive (by rw [none plenty]; decide)
  | abandon kind malformed =>
      obtain ⟨-, rfl⟩ := ready.few
      have member : cursor.current ∈ cursor.tokens := by
        rw [cursor.tokens_of_current (by rw [kind]; decide)]
        exact List.mem_cons_self
      obtain ⟨value, numeral⟩ := ready.legible.written _ member kind
      rw [Text.readInteger_numeral _ value numeral] at malformed
      cases malformed
  | current => exact ready
  | advance => exact ready.advance
  | pass here plain =>
      obtain ⟨few, rfl⟩ := ready.few
      have held : cursor.Ready (.held none) _ := ⟨ready.legible, few⟩
      exact held.pass (here ▸ plain.2)
  | expect frames kind plain enough => exact expect_completes ready (enough plenty ready.positive) plain.2
  | enter frames enough | leave frames enough =>
      exact expect_completes ready (enough plenty ready.positive) (by decide)
  | accept kind plain =>
      rw [Production.accept]
      split
      · next same => exact (ready.pass (same ▸ plain.2)).loosen (Nat.sub_le _ 1)
      · exact ready
  | look continued ih => exact ih cursor.current ⟨ready.legible, ready.few, rfl⟩
  | peek continued ih => exact ih cursor.peek ⟨ready.legible, ready.few, rfl⟩
  | again onward ih => exact ih ⟨ready.legible, ready.few.1⟩
  | keep here plain onward ih =>
      obtain ⟨few, rfl⟩ := ready.few
      exact ih ⟨ready.legible, Cursor.passed_length few (here ▸ plain.2)⟩
  | opening brace onward ih =>
      obtain ⟨few, rfl⟩ := ready.few
      exact ih ⟨ready.legible, Cursor.passed_length few (by rw [brace]; decide)⟩
  | stay onward ih => exact ih ⟨ready.legible, ready.few.1⟩
  | @bind _ _ _ _ _ _ _ _ _ first next begun continued ih ih' =>
      have completes := ih ready
      rw [bind_apply]
      cases result : first cursor with
      | read value reached =>
          rw [result] at completes
          exact ih' value completes
      | failed reached | tooDeep reached | abandoned error =>
          rw [result] at completes
          exact completes
  | choice positive negative ih ih' =>
      rw [choice_apply]
      split
      · next holds => exact ih holds ready
      · next fails => exact ih' fails ready
  | stop positive negative ih ih' =>
      dsimp only
      split
      · exact ih ready
      · next inside => exact ih' ⟨ready.legible, ready.few, inside⟩
  | close value order otherwise ih =>
      dsimp only
      split
      · next closed =>
          have few := Cursor.passed_length ready.few (by rw [closed]; decide)
          exact ⟨ready.legible, show cursor.tokens.tail.length < _ by omega⟩
      · exact ih ready
  | @attempt _ _ limit frames _ _ _ _ next other begun onward otherwise ih ih' ih'' =>
      have completes := ih ⟨ready.legible, ready.few.1⟩
      have leads := statement_yields (expression_sound bound limit) frames cursor
      rw [recover]
      cases result : statement (expression bound limit) frames cursor with
      | read node reached =>
          rw [result] at completes
          exact ih' node completes
      | failed reached =>
          rw [result] at completes leads
          -- Wherever the statement fails, the token that it begins on is not ahead any more.
          have few := Cursor.passed_length ready.few.1 ready.few.2
          have shorter := leads.1.suffix.length_le
          refine ih'' ⟨completes, ?_⟩
          show reached.tokens.tail.length < _
          rw [List.length_tail] at few ⊢
          omega
      | tooDeep reached | abandoned error =>
          rw [result] at completes
          exact completes
  | resume onward ih => exact ih ready.resume
  | mend value order onward ih =>
      dsimp only
      split
      · exact ⟨ready.legible, Nat.lt_of_lt_of_le ready.few order⟩
      · exact ih ready.resume
  | @body _ _ limit frames _ _ begun ih =>
      have completes := ih cursor.depth ready.advance
      rw [blockBody]
      cases result : blockStatements (expression bound limit) frames cursor.depth bound cursor.advance with
      | read nodes reached =>
          rw [result] at completes
          exact ⟨completes.legible, completes.few⟩
      | failed reached | tooDeep reached | abandoned error =>
          rw [result] at completes
          exact completes

end Script

namespace Grammar

theorem ofTokens_ready {tokens : List Token} (written : Written tokens) :
    (Cursor.ofTokens tokens).Ready (.fresh none) (tokens.length + 1) :=
  ⟨⟨written, List.forall_mem_nil _⟩, Nat.lt_succ_self tokens.length⟩

theorem readTokens_unbroken {tokens : List Token} (written : Written tokens) {limit : Nat}
    (enough : 9 * tokens.length + 18 ≤ limit) :
    ∃ reading : Reading, readTokens limit tokens = .ok reading ∧ ¬ reading.BrokenOff := by
  have completes : (program limit tokens).Completes (.fresh none) (tokens.length + 1) :=
    (Script.ofProgram True limit tokens fun _ => enough).completes trivial (ofTokens_ready written)
  cases result : program limit tokens with
  | read nodes after =>
      rw [result] at completes
      refine ⟨_, readTokens_of_read result, ?_⟩
      rintro ⟨line, member⟩
      exact completes.legible.unbroken _ member rfl
  | failed after => exact absurd result (statements_unfailed _ _ _ _ _)
  | tooDeep after =>
      rw [result] at completes
      exact completes.elim
  | abandoned error =>
      rw [result] at completes
      exact completes.elim

/-- Reading comes to an end, and no diagnostic says that phrases nest too deep, on every stack that has
nine frames for each token, nine for the end and nine more; and on all such stacks the reading is the
same. -/
theorem reading_completes (tokens : List Token) (written : Written tokens) :
    ∃ reading : Reading, ¬ reading.BrokenOff ∧
      ∀ limit, 9 * tokens.length + 18 ≤ limit → readTokens limit tokens = .ok reading := by
  rcases readTokens_unbroken written (Nat.le_refl _) with ⟨reading, read, kept⟩
  refine ⟨reading, kept, fun limit enough => ?_⟩
  rcases readTokens_within _ limit enough tokens with same | ⟨other, broken, deep⟩
  · rw [← same, read]
  · rw [read] at broken
    cases broken
    exact absurd deep kept

/-- `let x =` with the end in the middle of the stream, and behind it a token of an unknown class and a
brace that is not closed. -/
def brokenBinding : List Token :=
  [⟨.letWord, "let", 1, 0⟩, ⟨.ident, "x", 1, 4⟩, ⟨.assign, "=", 1, 6⟩, .ending 1, ⟨.bang, "!", 1, 9⟩,
    ⟨.other "MARK", "#", 2, 0⟩, ⟨.lbrace, "\x7b", 2, 1⟩, ⟨.int, "7", 2, 2⟩]

/-- Reading goes on behind the end that the binding fails on, and is the same from 90 frames on. -/
theorem brokenBinding_completes :
    Written brokenBinding ∧ ∀ limit, 90 ≤ limit → readTokens limit brokenBinding =
      .ok ⟨[], [⟨.noOperand .eof, 1⟩, ⟨.noOperand (.other "MARK"), 2⟩]⟩ := by
  have seven : Text.Numeral "7" 7 := ⟨[7], by decide, by decide, by decide, rfl⟩
  have written : Written brokenBinding := by
    simp only [Written, brokenBinding, List.forall_mem_cons]
    simp [Token.ending, Exists.intro 7 seven]
  have shown : readTokens 90 brokenBinding =
      .ok ⟨[], [⟨.noOperand .eof, 1⟩, ⟨.noOperand (.other "MARK"), 2⟩]⟩ := by rfl
  rcases reading_completes brokenBinding written with ⟨reading, -, read⟩
  refine ⟨written, fun limit enough => ?_⟩
  calc readTokens limit brokenBinding = .ok reading := read limit enough
    _ = readTokens 90 brokenBinding := (read 90 (Nat.le_refl 90)).symm
    _ = _ := shown

end Grammar

end Marmoset
