import Marmoset.Proofs.Grammar.Progress
import Marmoset.Proofs.Grammar.Script

/-!
Which brace ends a block. A production leaves as many braces open as it found, unless something was
reported in it; and however it recovers from failures, a block never runs past its own closing brace.
It may end too early: a statement that fails inside a brace which it opened itself leaves that brace
open behind a semicolon, and the closing brace that belongs to it then ends the block.
-/

namespace Marmoset

namespace Cursor

def outside (cursor : Cursor) : Int := cursor.depth - cursor.current.kind.braces

theorem advance_outside (cursor : Cursor) : cursor.advance.outside = cursor.depth :=
  Int.add_sub_cancel cursor.depth cursor.peek.kind.braces

/-- A phrase may start here: at least `level` braces are open before it, and no more than these unless
something was reported behind the first `count` diagnostics. -/
structure Fresh (count : Nat) (level : Int) (cursor : Cursor) : Prop where
  reports : count ≤ cursor.diagnostics.length
  outside : level ≤ cursor.outside
  calm : cursor.diagnostics.length = count → cursor.outside = level

/-- A phrase may stop here: the same of the braces that are open behind the current token, with at
least `low` of them open before it. -/
structure Level (count : Nat) (low level : Int) (cursor : Cursor) : Prop where
  reports : count ≤ cursor.diagnostics.length
  outside : low ≤ cursor.outside
  depth : level ≤ cursor.depth
  calm : cursor.diagnostics.length = count → cursor.depth = level

variable {count : Nat} {low level : Int} {cursor : Cursor}

theorem Level.lower {lower : Int} (at_level : cursor.Level count low level) (order : lower ≤ low) :
    cursor.Level count lower level :=
  ⟨at_level.reports, Int.le_trans order at_level.outside, at_level.depth, at_level.calm⟩

theorem Level.advance (at_level : cursor.Level count low level) : cursor.advance.Fresh count level := by
  refine ⟨at_level.reports, ?_, ?_⟩
  · rw [advance_outside]
    exact at_level.depth
  · intro quiet
    rw [advance_outside]
    exact at_level.calm quiet

theorem Fresh.reach (fresh : cursor.Fresh count level) {kind : TokenKind}
    (here : cursor.current.kind = kind) : cursor.Level count level (level + kind.braces) := by
  have shift : cursor.depth = cursor.outside + kind.braces := by
    rw [Cursor.outside, here]
    exact (Int.sub_add_cancel cursor.depth kind.braces).symm
  refine ⟨fresh.reports, fresh.outside, ?_, ?_⟩
  · rw [shift]
    exact Int.add_le_add_right fresh.outside _
  · intro quiet
    rw [shift, fresh.calm quiet]

/-- Passing over tokens keeps the braces open that are open already, since braces opened on the way
are passed over with what they hold. -/
theorem skip_depth (tokens : List Token) (opened : Nat) (depth floor : Int)
    (above : floor + opened ≤ depth - (headKind tokens).braces)
    (closing : headKind tokens = .rbrace → floor ≤ depth) :
    floor ≤ (skip opened depth tokens).1 := by
  induction tokens generalizing opened depth with
  | nil =>
      have plain : (headKind []).braces = 0 := rfl
      rw [skip]
      omega
  | cons token rest ih =>
      have above : floor + opened ≤ depth - token.kind.braces := above
      have here : floor ≤ depth := by
        by_cases brace : token.kind = .rbrace
        · exact closing brace
        · have outward : 0 ≤ token.kind.braces := by
            unfold TokenKind.braces
            split <;> first | contradiction | decide
          omega
      have still : floor + counted opened token.kind ≤ depth := by
        revert above
        cases token.kind <;> simp [TokenKind.braces, counted] <;> omega
      rw [skip_token]
      split
      · exact here
      split
      · exact here
      · next goes =>
          apply ih
          · omega
          · intro brace
            have opened_still : counted opened token.kind ≠ 0 :=
              fun none => goes ⟨none, .inr (.inl brace)⟩
            rw [brace]
            simp only [TokenKind.braces]
            omega

theorem resume_depth (floor : Int) (above : floor ≤ cursor.outside)
    (closing : cursor.current.kind = .rbrace → floor ≤ cursor.depth) :
    floor ≤ cursor.resume.depth := by
  apply skip_depth
  · rw [← current_kind]
    simpa [Cursor.outside] using above
  · rw [← current_kind]
    exact closing

end Cursor

/-- What a stance tells of the braces in a phrase that began with `base` of them, not behind the first
`count` diagnostics. Where it is not known how many were opened, nothing can be told. -/
def Stance.Holds (count : Nat) (base : Int) : Stance → Cursor → Prop
  | .fresh opened, cursor | .inside opened, cursor =>
    ∃ more : Nat, opened = some more ∧ cursor.Fresh count (base + more)
  | .on token opened, cursor =>
    (∃ more : Nat, opened = some more ∧ cursor.Fresh count (base + more)) ∧ cursor.current = token
  | .held opened, cursor => ∃ more : Nat, opened = some more ∧ cursor.Level count base (base + more)
  | .before token opened, cursor =>
    (∃ more : Nat, opened = some more ∧ cursor.Level count base (base + more)) ∧ cursor.peek = token
  | .failed opened, cursor =>
    opened.isSome ∧ count < cursor.diagnostics.length ∧ base ≤ cursor.outside
  | .ended, cursor => cursor.Level count base (base - 1) ∧ cursor.current.kind = .rbrace

def Outcome.Ends {α : Type} (count : Nat) (base : Int) (after : Stance) : Outcome α → Prop
  | .read _ cursor => after.Holds count base cursor
  | .failed cursor => count < cursor.diagnostics.length ∧ base ≤ cursor.outside
  | .tooDeep _ => True
  | .abandoned _ => True

open Grammar Production

section Script

variable {bound count more later left last : Nat} {ample : Prop} {base : Int} {before after : Stance}
  {opened : Option Nat} {cursor : Cursor}

theorem refuse_ends {α : Type} (reports : count ≤ cursor.diagnostics.length) (outside : base ≤ cursor.outside)
    (problem : Problem) (line : Int) :
    (refuse problem line cursor : Outcome α).Ends count base after := by
  refine ⟨?_, outside⟩
  rw [Cursor.report_diagnostics, List.length_append]
  exact Nat.lt_succ_of_le reports

theorem Cursor.Fresh.hold (fresh : cursor.Fresh count (base + more)) {kind : TokenKind}
    (here : cursor.current.kind = kind) (shift : more + kind.braces = later) :
    cursor.Level count base (base + later) := by
  have reached := fresh.reach here
  rw [Int.add_assoc, shift] at reached
  exact reached.lower (by omega)

theorem expect_ends (level : cursor.Level count base (base + more)) (frames : Nat) {kind : TokenKind}
    (shift : more + kind.braces = later) (known : opened = some later) :
    (expect frames kind cursor).Ends count base (.held opened) := by
  rcases expect_cases frames kind cursor with ⟨same, found⟩ | ⟨-, missed⟩ | ⟨-, short⟩
  · exact found ▸ ⟨later, known, level.advance.hold same shift⟩
  · exact missed ▸ refuse_ends level.reports level.outside _ _
  · exact short ▸ trivial

theorem Cursor.enters (cursor : Cursor) :
    (Stance.fresh (some 0)).Holds cursor.diagnostics.length cursor.depth cursor.advance := by
  refine ⟨0, rfl, ?_⟩
  rw [Int.natCast_zero, Int.add_zero]
  exact ⟨Nat.le_refl _, Int.le_of_eq cursor.advance_outside.symm, fun _ => cursor.advance_outside⟩

theorem Cursor.fresh_of_zero (holds : (Stance.fresh (some 0)).Holds count base cursor) :
    cursor.Fresh count base := by
  obtain ⟨more, known, fresh⟩ := holds
  cases known
  rwa [Int.natCast_zero, Int.add_zero] at fresh

/-- Braces are kept as the stances of a script tell. -/
theorem Script.guides {α : Type} {production : Production α}
    (script : Script bound ample base before left production after last) (holds : before.Holds count base cursor) :
    (production cursor).Ends count base after := by
  induction script generalizing count cursor with
  | pure value => exact holds
  | refuse problem shallow =>
      obtain ⟨⟨more, known, fresh⟩, here⟩ := holds
      exact refuse_ends fresh.reports (by have := fresh.outside; omega) problem _
  | room needed frames =>
      rw [Production.room]
      split
      · exact holds
      · trivial
  | exhaust => trivial
  | abandon error => trivial
  | current => exact holds
  | advance =>
      obtain ⟨more, known, level⟩ := holds
      exact ⟨more, known, level.advance⟩
  | pass here plain =>
      obtain ⟨⟨more, known, level⟩, next⟩ := holds
      exact ⟨more, known, level.advance.hold ((congrArg Token.kind next).trans here)
        (by rw [plain.1, Int.add_zero])⟩
  | expect frames kind plain =>
      obtain ⟨more, known, level⟩ := holds
      exact expect_ends level frames (by rw [plain.1, Int.add_zero]) known
  | enter frames =>
      obtain ⟨more, rfl, level⟩ := holds
      exact expect_ends level frames rfl rfl
  | leave frames =>
      obtain ⟨more, known, level⟩ := holds
      obtain ⟨less, same, rfl⟩ := Option.map_eq_some_iff.mp known
      exact expect_ends level frames (Int.add_sub_cancel (less : Int) 1) same
  | accept kind plain =>
      obtain ⟨more, known, level⟩ := holds
      rw [Production.accept]
      split
      · next same => exact ⟨more, known, level.advance.hold same (by rw [plain.1, Int.add_zero])⟩
      · exact ⟨more, known, level⟩
  | look continued ih => exact ih cursor.current ⟨holds, rfl⟩
  | peek continued ih => exact ih cursor.peek ⟨holds, rfl⟩
  | again onward ih => exact ih holds.1
  | keep here plain onward ih =>
      obtain ⟨⟨more, known, fresh⟩, rfl⟩ := holds
      exact ih ⟨more, known, fresh.hold here (by rw [plain.1, Int.add_zero])⟩
  | opening brace onward ih =>
      obtain ⟨⟨more, rfl, fresh⟩, rfl⟩ := holds
      exact ih ⟨more + 1, rfl, fresh.hold brace rfl⟩
  | stay onward ih => exact ih holds.1
  | @bind _ _ _ _ _ _ _ _ _ first next begun continued ih ih' =>
      have ends := ih holds
      rw [bind_apply]
      cases result : first cursor with
      | read value reached =>
          rw [result] at ends
          exact ih' value ends
      | failed reached =>
          rw [result] at ends
          exact ends
      | tooDeep reached => trivial
      | abandoned error => trivial
  | choice positive negative ih ih' =>
      rw [choice_apply]
      split
      · next positive => exact ih positive holds
      · next negative => exact ih' negative holds
  | stop positive negative ih ih' =>
      dsimp only
      split
      · exact ih holds
      · exact ih' holds
  | close value order otherwise ih =>
      dsimp only
      split
      · next closed => exact ⟨(Cursor.fresh_of_zero holds).reach closed, closed⟩
      · exact ih holds
  | @attempt _ _ limit frames _ _ opened _ next other begun onward otherwise ih ih' ih'' =>
      have ends := ih holds
      rw [recover]
      cases result : statement (expression bound limit) frames cursor with
      | read node reached =>
          rw [result] at ends
          exact ih' node ends
      | failed reached =>
          rw [result] at ends
          obtain ⟨more, rfl, -⟩ := holds
          exact ih'' ⟨rfl, ends⟩
      | tooDeep reached => trivial
      | abandoned error => trivial
  | resume => exact absurd holds.1 (by decide)
  | @mend _ base _ _ value _ order onward ih =>
      obtain ⟨-, reported, outside⟩ := holds
      dsimp only
      split
      · next own =>
          -- The brace that the statement failed on is the block's own.
          have shift : cursor.depth = cursor.outside - 1 := by
            simp only [Cursor.outside, own.1, TokenKind.braces]
            omega
          refine ⟨⟨Nat.le_of_lt reported, outside, ?_, ?_⟩, own.1⟩
          · omega
          · intro quiet
            omega
      · next other =>
          apply ih
          refine ⟨0, rfl, Nat.le_of_lt reported, ?_, ?_⟩
          · rw [Cursor.advance_outside, Int.natCast_zero, Int.add_zero]
            apply Cursor.resume_depth base outside
            intro brace
            exact Int.not_lt.mp fun below => other ⟨brace, below⟩
          · intro quiet
            exact absurd quiet (Nat.ne_of_gt reported)
  | @body base opened limit frames _ _ begun ih =>
      obtain ⟨more, known, level⟩ := holds
      obtain ⟨less, same, rfl⟩ := Option.map_eq_some_iff.mp known
      -- Inside the block, what was opened and reported before it counts for nothing.
      have ends := ih cursor.depth cursor.enters
      have reports := level.reports
      have deeper := level.depth
      rw [blockBody]
      cases result : blockStatements (expression bound limit) frames cursor.depth bound cursor.advance with
      | tooDeep reached => trivial
      | abandoned error => trivial
      | failed reached =>
          rw [result] at ends
          obtain ⟨reported, outside⟩ := ends
          constructor <;> omega
      | read nodes reached =>
          rw [result] at ends
          obtain ⟨closed, -⟩ := ends
          have more := closed.reports
          refine ⟨less, same, by omega, ?_, ?_, ?_⟩
          · have outside := closed.outside
            omega
          · have depth := closed.depth
            omega
          · intro quiet
            have before := level.calm (by omega)
            have behind := closed.calm (by omega)
            omega

end Script

namespace Grammar

theorem blockStatements_of_block {nested : Nat → Power → Production Node} {bound frames : Nat}
    {start after : Cursor} {node : Node} (read : block bound nested frames start = .read node after) :
    ∃ left nodes, blockStatements nested left start.depth bound start.advance = .read nodes after := by
  have body : blockBody bound nested (frames - 2) start = .read node after :=
    read_of_room (read_of_room read)
  obtain ⟨nodes, reached, result, body⟩ := Outcome.read_of_bind body
  cases body
  exact ⟨_, nodes, result⟩

/-- A block ends on a closing brace, and never behind its own one: no brace that was open around it is
closed. Where nothing is reported in it, the brace is its own. -/
theorem block_ends_inside (bound limit frames : Nat) (start after : Cursor) (node : Node)
    (read : block bound (expression bound limit) frames start = .read node after) :
    after.current.kind = .rbrace ∧ start.depth - 1 ≤ after.depth ∧
      (after.diagnostics = start.diagnostics → after.depth = start.depth - 1) := by
  obtain ⟨left, nodes, result⟩ := blockStatements_of_block read
  have script : Script bound False start.depth (.fresh (some 0)) 0
      (blockStatements (expression bound limit) left start.depth bound) .ended 0 :=
    .ofBlockStatements (.ofExpression bound False limit) start.depth bound False.elim (Nat.le_refl 0)
  have ends := script.guides start.enters
  rw [result] at ends
  obtain ⟨level, closed⟩ := ends
  exact ⟨closed, level.depth, fun quiet => level.calm (congrArg List.length quiet)⟩

/-- `{ let 1; 2 }`: a statement fails outside nested braces, and the block ends on its own brace. -/
def failedBinding : Cursor := .ofTokens
  [⟨.lbrace, "\x7b", 1, 0⟩, ⟨.letWord, "let", 1, 2⟩, ⟨.int, "1", 1, 6⟩, ⟨.semicolon, ";", 1, 7⟩,
    ⟨.int, "2", 1, 9⟩, ⟨.rbrace, "\x7d", 1, 11⟩]

theorem failedBinding_ends_inside : ∃ node after,
    block 7 (expression 7 30) 30 failedBinding = .read node after ∧ after.current.kind = .rbrace ∧
      failedBinding.depth - 1 ≤ after.depth := by
  let after : Cursor := ⟨[⟨.rbrace, "\x7d", 1, 11⟩], 1, 0, [⟨.expected .ident .int, 1⟩]⟩
  have read : block 7 (expression 7 30) 30 failedBinding =
      .read (.block [.statement (.integer 2 1) 1] 1) after := by rfl
  have ends := block_ends_inside 7 30 30 failedBinding after _ read
  exact ⟨_, after, read, ends.1, ends.2.1⟩

/-- `{ {1; } }`: a statement fails inside the brace of a map that it opened. -/
def failedMap : Cursor := .ofTokens
  [⟨.lbrace, "\x7b", 1, 0⟩, ⟨.lbrace, "\x7b", 1, 2⟩, ⟨.int, "1", 1, 3⟩, ⟨.semicolon, ";", 1, 4⟩,
    ⟨.rbrace, "\x7d", 1, 6⟩, ⟨.rbrace, "\x7d", 1, 8⟩]

/-- The block ends on the brace of the map, and its own brace stands behind it. -/
theorem failedMap_ends_early : ∃ after,
    block 7 (expression 7 30) 30 failedMap = .read (.block [] 1) after ∧
      after.tokens = [⟨.rbrace, "\x7d", 1, 6⟩, ⟨.rbrace, "\x7d", 1, 8⟩] ∧
      after.depth ≠ failedMap.depth - 1 := by
  refine ⟨⟨[⟨.rbrace, "\x7d", 1, 6⟩, ⟨.rbrace, "\x7d", 1, 8⟩], 1, 1,
    [⟨.expected .colon .semicolon, 1⟩]⟩, by rfl, rfl, by decide⟩

end Grammar

end Marmoset
