import Marmoset.Proofs.Grammar.Soundness
import Marmoset.Proofs.Grammar.Stack

/-!
The loop over the statements of a program. What it has read and reported in its first rounds stays, and
it goes on behind them. It does not fail, but it may be broken off.
-/

namespace Marmoset

namespace Outcome

variable {α β γ δ : Type}

inductive Broken : Outcome α → Outcome β → Prop
  | tooDeep (left right : Cursor) : Broken (.tooDeep left) (.tooDeep right)
  | abandoned (error : Text.IntegerError) : Broken (.abandoned error) (.abandoned error)

theorem Broken.bind_right {first : Outcome α} {second : Outcome β} (broken : first.Broken second)
    (next : β → Production γ) : first.Broken (second.bind next) := by
  cases broken with
  | tooDeep left right => exact .tooDeep left right
  | abandoned error => exact .abandoned error

theorem Broken.bind {first : Outcome α} {second : Outcome β} (broken : first.Broken second)
    (next : α → Production γ) (other : β → Production δ) :
    (first.bind next).Broken (second.bind other) := by
  cases broken with
  | tooDeep left right => exact .tooDeep left right
  | abandoned error => exact .abandoned error

theorem Broken.unread {first : Outcome α} {second : Outcome β} (broken : first.Broken second)
    (value : β) (cursor : Cursor) : second ≠ .read value cursor := by
  cases broken <;> exact fun same => nomatch same

theorem Broken.symm {first : Outcome α} {second : Outcome β} (broken : first.Broken second) :
    second.Broken first := by
  cases broken with
  | tooDeep left right => exact .tooDeep right left
  | abandoned error => exact .abandoned error

end Outcome

namespace Grammar

open Production

/-- Rounds of the loop over statements, whether they are read or fail: the statements that were read,
and the number of rounds. -/
inductive Rounds (nested : Nat → Power → Production Node) (frames : Nat) :
    Cursor → List Node → Nat → Cursor → Prop
  | none (cursor : Cursor) : Rounds nested frames cursor [] 0 cursor
  | read {cursor after final : Cursor} {node : Node} {nodes : List Node} {count : Nat}
      (inside : cursor.current.kind ≠ .eof) (first : statement nested frames cursor = .read node after)
      (others : Rounds nested frames after.advance nodes count final) :
      Rounds nested frames cursor (node :: nodes) (count + 1) final
  | failed {cursor after final : Cursor} {nodes : List Node} {count : Nat}
      (inside : cursor.current.kind ≠ .eof) (first : statement nested frames cursor = .failed after)
      (others : Rounds nested frames after.resume.advance nodes count final) :
      Rounds nested frames cursor nodes (count + 1) final

section Rounds

variable {nested : Nat → Power → Production Node} {cursor final : Cursor} {nodes : List Node}
  {frames count : Nat}

theorem statements_of_rounds (rounds : Rounds nested frames cursor nodes count final) (fuel : Nat) :
    statements nested frames (fuel + count) cursor =
      (statements nested frames fuel final).bind fun rest => pure (nodes ++ rest) := by
  induction rounds with
  | none cursor =>
      cases statements nested frames fuel cursor <;> rfl
  | read inside first others ih =>
      rw [← Nat.add_assoc, statements_succ, if_neg inside, first]
      dsimp only
      rw [ih]
      cases statements nested frames fuel _ <;> rfl
  | failed inside first others ih =>
      rw [← Nat.add_assoc, statements_succ, if_neg inside, first]
      exact ih

theorem Rounds.leads (sound : Sound nested) (rounds : Rounds nested frames cursor nodes count final) :
    cursor.Leads final := by
  induction rounds with
  | none cursor => exact .refl
  | @read cursor after _ _ _ _ inside first others ih =>
      have yields := statement_yields sound frames cursor
      rw [first] at yields
      exact yields.1.advance.trans ih
  | @failed cursor after _ _ _ inside first others ih =>
      have yields := statement_yields sound frames cursor
      rw [first] at yields
      exact (yields.1.trans after.resume_leads.advance).trans ih

end Rounds

theorem statements_unfailed (nested : Nat → Power → Production Node) (frames fuel : Nat)
    (cursor after : Cursor) : statements nested frames fuel cursor ≠ .failed after := by
  induction fuel generalizing cursor with
  | zero => exact fun same => nomatch same
  | succ fuel ih =>
      rw [statements_succ]
      split
      · exact fun same => nomatch same
      cases statement nested frames cursor with
      | read node middle =>
          have rest := ih middle.advance
          dsimp only
          generalize statements nested frames fuel middle.advance = outcome at rest ⊢
          cases outcome with
          | failed last => exact rest
          | read | tooDeep | abandoned => exact fun same => nomatch same
      | failed middle => exact ih _
      | tooDeep | abandoned => exact fun same => nomatch same

theorem readTokens_of_read {limit : Nat} {tokens : List Token} {nodes : List Node} {after : Cursor}
    (result : program limit tokens = .read nodes after) :
    readTokens limit tokens = .ok ⟨nodes, after.diagnostics⟩ := by
  simp only [readTokens, result]

theorem readTokens_of_tooDeep {limit : Nat} {tokens : List Token} {after : Cursor}
    (result : program limit tokens = .tooDeep after) : readTokens limit tokens =
      .ok ⟨[], after.diagnostics ++ [⟨.nestedTooDeep, after.current.line⟩]⟩ := by
  simp only [readTokens, result, Cursor.report_diagnostics]

theorem readTokens_of_abandoned {limit : Nat} {tokens : List Token} {error : Text.IntegerError}
    (result : program limit tokens = .abandoned error) : readTokens limit tokens = .error error := by
  simp only [readTokens, result]

theorem program_of_readTokens {limit : Nat} {tokens : List Token} {reading : Reading}
    (read : readTokens limit tokens = .ok reading) (kept : ¬ reading.BrokenOff) :
    ∃ after, program limit tokens = .read reading.statements after ∧
      after.diagnostics = reading.diagnostics := by
  cases result : program limit tokens with
  | read nodes after =>
      rw [readTokens_of_read result] at read
      cases read
      exact ⟨after, rfl, rfl⟩
  | failed after => exact absurd result (statements_unfailed _ _ _ _ _)
  | tooDeep after =>
      rw [readTokens_of_tooDeep result] at read
      cases read
      exact absurd ⟨after.current.line, by simp⟩ kept
  | abandoned error =>
      rw [readTokens_of_abandoned result] at read
      cases read

theorem program_of_clean {limit : Nat} {tokens : List Token} {nodes : List Node}
    (clean : readTokens limit tokens = .ok ⟨nodes, []⟩) :
    ∃ after, program limit tokens = .read nodes after ∧ after.diagnostics = [] :=
  program_of_readTokens clean fun ⟨_, broken⟩ => nomatch broken

end Grammar

end Marmoset
