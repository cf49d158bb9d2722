import Marmoset.Proofs.Grammar.Abreast
import Marmoset.Proofs.Grammar.Rounds

/-!
Recovery is local to a semicolon. What is read up to a semicolon at the end of a token list does not
depend on what stands behind it, as long as no brace is involved or nothing is reported; and what is
read behind it is what is read of the rest alone.
-/

namespace Marmoset

open Marmoset.Derivation

namespace Cursor

def shift (cursor : Cursor) (depth : Int) (earlier : List Diagnostic) : Cursor :=
  { cursor with depth := cursor.depth + depth, diagnostics := earlier ++ cursor.diagnostics }

theorem advance_shift (cursor : Cursor) (depth : Int) (earlier : List Diagnostic) :
    (cursor.shift depth earlier).advance = cursor.advance.shift depth earlier := by
  simp only [advance, shift, Cursor.mk.injEq, true_and, and_true]
  exact Int.add_right_comm _ _ _

theorem report_shift (cursor : Cursor) (depth : Int) (earlier : List Diagnostic) (problem : Problem)
    (line : Int) :
    (cursor.shift depth earlier).report problem line =
      (cursor.report problem line).shift depth earlier := by
  simp only [report, shift, List.append_assoc]

theorem skip_shift (opened : Nat) (depth more : Int) (tokens : List Token) :
    skip opened (depth + more) tokens =
      ((skip opened depth tokens).1 + more, (skip opened depth tokens).2) := by
  induction tokens generalizing opened depth with
  | nil => rfl
  | cons token rest ih =>
      rw [skip_token, skip_token]
      split
      · rfl
      split
      · rfl
      · rw [Int.add_right_comm]
        exact ih _ _

theorem resume_shift (cursor : Cursor) (depth : Int) (earlier : List Diagnostic) :
    (cursor.shift depth earlier).resume = cursor.resume.shift depth earlier := by
  simp only [resume, shift, skip_shift]

end Cursor

theorem Written.numeral {tokens : List Token} (written : Written tokens) {cursor : Cursor}
    (part : cursor.tokens <:+ tokens) (kind : cursor.current.kind = .int) :
    ∃ value, Text.readInteger cursor.current.literal = .ok value := by
  have member : cursor.current ∈ cursor.tokens := by
    rw [cursor.tokens_of_current (by rw [kind]; decide)]
    exact List.mem_cons_self
  rcases written cursor.current (part.subset member) kind with ⟨value, numeral⟩
  exact ⟨value, Text.readInteger_numeral _ value numeral⟩

/-- The same tokens up to a semicolon, with no end among them and braces only if they are allowed, and
whatever behind it. -/
def Cursor.SameUpTo (braced : Prop) (semicolon : Token) (rest rest' : List Token)
    (left right : Cursor) : Prop :=
  ∃ front, (∀ token ∈ front, token.kind ≠ .eof ∧ (braced ∨ token.kind.braces = 0)) ∧
    left.tokens = front ++ semicolon :: rest ∧ right.tokens = front ++ semicolon :: rest' ∧
      right.depth = left.depth ∧ right.diagnostics = left.diagnostics

namespace Cursor.SameUpTo

variable {braced : Prop} {semicolon : Token} {rest rest' : List Token} {left right : Cursor}

theorem current (same : SameUpTo braced semicolon rest rest' left right) :
    left.current = right.current := by
  rcases same with ⟨front, -, stream, stream', -⟩
  rw [Cursor.current, Cursor.current, stream, stream']
  cases front <;> rfl

theorem step (same : SameUpTo braced semicolon rest rest' left right) :
    (left.tokens = semicolon :: rest ∧ right.tokens = semicolon :: rest') ∨
      (left.peek = right.peek ∧ SameUpTo braced semicolon rest rest' left.advance right.advance) := by
  rcases same with ⟨front, plain, stream, stream', depth, diagnostics⟩
  cases front with
  | nil => exact .inl ⟨stream, stream'⟩
  | cons token front =>
      have next : left.peek = right.peek := by
        rw [Cursor.peek, Cursor.peek, stream, stream']
        cases front <;> rfl
      refine .inr ⟨next, front, (List.forall_mem_cons.mp plain).2, ?_, ?_, ?_, diagnostics⟩
      · rw [advance_tokens, stream]
        rfl
      · rw [advance_tokens, stream']
        rfl
      · rw [Cursor.advance, Cursor.advance, next, depth]

theorem onto (same : SameUpTo braced semicolon rest rest' left right)
    (kind : semicolon.kind = .semicolon) (before : left.current.kind ≠ .semicolon) :
    left.peek = right.peek ∧ SameUpTo braced semicolon rest rest' left.advance right.advance := by
  rcases same.step with ⟨stream, -⟩ | next
  · rw [left.current_of_tokens _ _ stream] at before
    exact absurd kind before
  · exact next

theorem report (same : SameUpTo braced semicolon rest rest' left right) (problem : Problem)
    (line : Int) :
    SameUpTo braced semicolon rest rest' (left.report problem line) (right.report problem line) := by
  rcases same with ⟨front, plain, stream, stream', depth, diagnostics⟩
  refine ⟨front, plain, stream, stream', depth, ?_⟩
  rw [report_diagnostics, report_diagnostics, diagnostics]

theorem opened (same : SameUpTo braced semicolon rest rest' left right)
    (kind : semicolon.kind = .semicolon) (brace : left.current.kind = .lbrace) : braced := by
  rcases same with ⟨front, plain, stream, -⟩
  cases front with
  | nil =>
      rw [left.current_of_tokens _ _ stream, kind] at brace
      cases brace
  | cons token front =>
      rcases (plain token List.mem_cons_self).2 with allowed | none
      · exact allowed
      · rw [← left.current_of_tokens _ _ stream, brace] at none
        cases none

theorem inside (same : SameUpTo braced semicolon rest rest' left right)
    (kind : semicolon.kind = .semicolon) : left.current.kind ≠ .eof := by
  rcases same with ⟨front, plain, stream, -⟩
  cases front with
  | nil =>
      rw [left.current_of_tokens _ _ stream, kind]
      decide
  | cons token front =>
      rw [left.current_of_tokens _ _ stream]
      exact (plain token List.mem_cons_self).1

/-- Passing over tokens stops on the semicolon at the latest, whatever stands behind it, unless a brace
is still open there; then it goes on, up to the end where nothing but ends stands behind. -/
theorem skip_front (semicolon : Token) (kind : semicolon.kind = .semicolon) (front : List Token)
    (inside : ∀ token ∈ front, token.kind ≠ .eof) (opened : Nat) (depth : Int) :
    (∃ after behind, behind <:+ front ∧ ∀ rest,
        skip opened depth (front ++ semicolon :: rest) = (after, behind ++ semicolon :: rest)) ∨
      ((opened ≠ 0 ∨ ∃ token ∈ front, token.kind.braces ≠ 0) ∧
        ∀ rest : List Token, (∀ token ∈ rest, token.kind = .eof) →
          ∀ token ∈ (skip opened depth (front ++ semicolon :: rest)).2, token.kind = .eof) := by
  induction front generalizing opened depth with
  | nil =>
      have uncounted : counted opened semicolon.kind = opened := by rw [kind]; rfl
      have inside : semicolon.kind ≠ .eof := by rw [kind]; decide
      by_cases still : opened = 0
      · refine .inl ⟨depth, [], List.suffix_refl _, fun rest => ?_⟩
        rw [List.nil_append, skip_token, if_neg inside, uncounted, if_pos ⟨still, .inl kind⟩]
      · refine .inr ⟨.inl still, fun rest spent token member => spent token ?_⟩
        rw [List.nil_append, skip_token, if_neg inside, uncounted, if_neg fun stop => still stop.1]
          at member
        exact (skip_leads rest 0 _ [] opened).suffix.subset member
  | cons token front ih =>
      rcases List.forall_mem_cons.mp inside with ⟨here, inside⟩
      have next (rest : List Token) :
          headKind (front ++ semicolon :: rest) = headKind (front ++ [semicolon]) := by
        cases front <;> rfl
      by_cases stop : counted opened token.kind = 0 ∧ (token.kind = .semicolon ∨
          headKind (front ++ [semicolon]) = .rbrace ∨ headKind (front ++ [semicolon]) = .eof)
      · refine .inl ⟨depth, token :: front, List.suffix_refl _, fun rest => ?_⟩
        rw [List.cons_append, skip_token, if_neg here, next, if_pos stop]
      have goes (rest : List Token) : skip opened depth (token :: front ++ semicolon :: rest) =
          skip (counted opened token.kind) (depth + (headKind (front ++ [semicolon])).braces)
            (front ++ semicolon :: rest) := by
        rw [List.cons_append, skip_token, if_neg here, next, if_neg stop]
      rcases ih inside (counted opened token.kind) (depth + (headKind (front ++ [semicolon])).braces)
        with ⟨after, behind, suffix, skipped⟩ | ⟨brace, skipped⟩
      · refine .inl ⟨after, behind, suffix.trans (List.suffix_cons token front), fun rest => ?_⟩
        rw [goes, skipped]
      · refine .inr ⟨?_, fun rest spent => ?_⟩
        · by_cases flat : token.kind.braces = 0
          · have uncounted : counted opened token.kind = opened := by
              revert flat
              cases token.kind <;> simp [counted, TokenKind.braces]
            rw [uncounted] at brace
            rcases brace with still | ⟨other, member, brace⟩
            · exact .inl still
            · exact .inr ⟨other, List.mem_cons_of_mem _ member, brace⟩
          · exact .inr ⟨token, List.mem_cons_self, flat⟩
        · rw [goes]
          exact skipped rest spent

theorem resume (same : SameUpTo braced semicolon rest rest' left right)
    (kind : semicolon.kind = .semicolon) (spent : ∀ token ∈ rest, token.kind = .eof) :
    SameUpTo braced semicolon rest rest' left.resume right.resume ∨ (braced ∧ left.resume.Over) := by
  rcases same with ⟨front, plain, stream, stream', depth, diagnostics⟩
  rcases skip_front semicolon kind front (fun token member => (plain token member).1) 0 left.depth with
    ⟨after, behind, suffix, skipped⟩ | ⟨brace, skipped⟩
  · refine .inl ⟨behind, fun token member => plain token (suffix.subset member), ?_, ?_, ?_,
      diagnostics⟩
    · simp only [Cursor.resume, stream, skipped]
    · simp only [Cursor.resume, stream', depth, skipped]
    · simp only [Cursor.resume, stream, stream', depth, skipped]
  · rcases brace with zero | ⟨token, member, brace⟩
    · exact absurd rfl zero
    · refine .inr ⟨(plain token member).2.resolve_right brace, ?_⟩
      simp only [Cursor.Over, Cursor.resume, stream]
      exact skipped rest spent

end Cursor.SameUpTo

namespace Track

def later (tokens : List Token) (depth : Int) (earlier : List Diagnostic) : Track .same where
  near left right := right = left.shift depth earlier ∧ left.tokens <:+ tokens
  onward := True
  braced := True
  scarce := False
  current := by
    rintro left right ⟨rfl, -⟩
    rfl
  peek := by
    rintro left right ⟨rfl, -⟩ -
    rfl
  advance := by
    rintro left right ⟨rfl, part⟩ -
    exact ⟨left.advance_shift depth earlier, (List.tail_suffix _).trans part⟩
  report := by
    rintro left right token _ problem ⟨rfl, part⟩ rfl
    exact ⟨left.report_shift depth earlier problem token.line, part⟩
  depth := by
    rintro left right before behind ⟨rfl, -⟩ ⟨rfl, -⟩
    exact Int.add_lt_add_iff_right depth
  opened := fun _ _ => trivial
  behind := by
    rintro left right - ⟨rfl, part⟩
    exact .inl ⟨left.advance_shift depth earlier, (List.tail_suffix _).trans part⟩
  resumed := by
    rintro left right - ⟨rfl, part⟩
    refine .inl ⟨?_, left.resume_leads.advance.suffix.trans part⟩
    rw [left.resume_shift, Cursor.advance_shift]

def upTo (braced : Prop) (semicolon : Token) (kind : semicolon.kind = .semicolon)
    (rest rest' : List Token) (spent : ∀ token ∈ rest, token.kind = .eof) : Track .same where
  near := Cursor.SameUpTo braced semicolon rest rest'
  onward := False
  braced := braced
  scarce := False
  current := fun same => same.current
  peek := fun same before => (same.onto kind (before.resolve_left id)).1
  advance := fun same before => (same.onto kind (before.resolve_left id)).2
  report := by
    rintro left right token _ problem same rfl
    exact same.report problem token.line
  depth := by
    rintro left right before behind ⟨_, -, -, -, depth, -⟩ ⟨_, -, -, -, depth', -⟩
    rw [depth, depth']
  opened := fun same brace => same.opened kind brace
  behind := by
    intro left right _ same
    rcases same.step with ⟨stream, -⟩ | ⟨-, further⟩
    · refine .inr ⟨id, ?_⟩
      rw [Cursor.Over, Cursor.advance_tokens, stream]
      exact spent
    · exact .inl further
  resumed := by
    intro left right _ same
    rcases same.resume kind spent with near | ⟨-, ended⟩
    · rcases near.step with ⟨stream, -⟩ | ⟨-, further⟩
      · refine .inr ⟨id, ?_⟩
        rw [Cursor.Over, Cursor.advance_tokens, stream]
        exact spent
      · exact .inl further
    · exact .inr ⟨id, ended.leads Cursor.Leads.refl.advance⟩

end Track

namespace Grammar

open Production

/-- One reading has come to the end of a list that ends in a semicolon, and the other one to what
stands behind it there; or both stand before that semicolon. -/
def Ahead (braced : Prop) (semicolon : Token) (rest rest' : List Token) (left right : Cursor) : Prop :=
  (left.tokens = rest ∧ right.tokens = rest' ∧ right.diagnostics = left.diagnostics) ∨
    Cursor.SameUpTo braced semicolon rest rest' left right

theorem ahead_of_advance {braced : Prop} {semicolon : Token} {rest rest' : List Token}
    {left right : Cursor} (same : Cursor.SameUpTo braced semicolon rest rest' left right) :
    Ahead braced semicolon rest rest' left.advance right.advance := by
  rcases same.step with ⟨stream, stream'⟩ | ⟨-, further⟩
  · rcases same with ⟨_, -, -, -, -, diagnostics⟩
    refine .inl ⟨?_, ?_, diagnostics⟩
    · rw [Cursor.advance_tokens, stream]
      rfl
    · rw [Cursor.advance_tokens, stream']
      rfl
  · exact .inr further

def Reports (nested : Nat → Power → Production Node) (frames fuel : Nat) (cursor : Cursor) : Prop :=
  ∀ nodes after, statements nested frames fuel cursor = .read nodes after →
    cursor.diagnostics.length < after.diagnostics.length

section Reports

variable {nested : Nat → Power → Production Node} {frames fuel : Nat} {cursor middle : Cursor}

theorem Reports.of_failed (sound : Sound nested) (inside : cursor.current.kind ≠ .eof)
    (failed : statement nested frames cursor = .failed middle) : Reports nested frames (fuel + 1) cursor := by
  intro nodes after read
  have first := statement_yields sound frames cursor
  have rest := statements_yield sound frames fuel middle.resume.advance
  rw [failed] at first
  rw [statements_succ, if_neg inside, failed] at read
  dsimp only at read
  rw [read] at rest
  have more := (middle.resume_leads.advance.trans rest.1).diagnostics.length_le
  exact Nat.lt_of_lt_of_le first.2 more

theorem Reports.of_read (sound : Sound nested) (inside : cursor.current.kind ≠ .eof) {node : Node}
    (first : statement nested frames cursor = .read node middle)
    (rest : Reports nested frames fuel middle.advance) : Reports nested frames (fuel + 1) cursor := by
  intro nodes after read
  have yields := statement_yields sound frames cursor
  rw [first] at yields
  rw [statements_succ, if_neg inside, first] at read
  cases result : statements nested frames fuel middle.advance with
  | read others last =>
      simp only [result, Outcome.read_bind, pure_apply, Outcome.read.injEq] at read
      rcases read with ⟨-, rfl⟩
      exact Nat.lt_of_le_of_lt yields.1.diagnostics.length_le (rest others last result)
  | failed last => exact absurd result (statements_unfailed _ _ _ _ _)
  | tooDeep last => simp [result] at read
  | abandoned error => simp [result] at read

end Reports

theorem rounds_before {braced : Prop} {semicolon : Token} (kind : semicolon.kind = .semicolon)
    {rest rest' : List Token} (spent : ∀ token ∈ rest, token.kind = .eof) {limit frames frames' : Nat}
    {nested nested' : Nat → Power → Production Node} (sound : Sound nested)
    (together : Together (.upTo braced semicolon kind rest rest' spent) limit frames frames' nested nested')
    {size : Nat} (within : size ≤ limit) (fuel fuel' : Nat) (room : size ≤ fuel)
    (room' : size ≤ fuel') {left right : Cursor} (ahead : Ahead braced semicolon rest rest' left right)
    (few : left.tokens.length < size) :
    (statements nested frames fuel left).Broken (statements nested' frames' fuel' right) ∨
      (braced ∧ Reports nested frames fuel left) ∨
      ∃ nodes after count final, statements nested frames fuel left = .read nodes after ∧
        Rounds nested' frames' right nodes count final ∧ count + rest.length ≤ left.tokens.length ∧
        final.tokens = rest' ∧ final.diagnostics = after.diagnostics := by
  induction size generalizing fuel fuel' left right with
  | zero => exact absurd few (Nat.not_lt_zero _)
  | succ size ih =>
      obtain ⟨fuel, rfl⟩ : ∃ less, fuel = less + 1 := ⟨fuel - 1, by omega⟩
      obtain ⟨fuel', rfl⟩ : ∃ less, fuel' = less + 1 := ⟨fuel' - 1, by omega⟩
      rcases ahead with ⟨done, stream, diagnostics⟩ | same
      · have ended : left.Over := by
          rw [Cursor.Over, done]
          exact spent
        refine .inr (.inr ⟨[], left, 0, right, ?_, .none right, ?_, stream, diagnostics⟩)
        · rw [statements_succ, if_pos ended.ended]
        · rw [done, Nat.zero_add]
      have inside := same.inside kind
      have inside' : right.current.kind ≠ .eof := by
        rw [← same.current]
        exact inside
      have short : left.tokens.length + 1 ≤ limit := by omega
      have nonempty : 0 < left.tokens.length := by
        rw [left.tokens_of_current inside]
        exact Nat.succ_pos _
      have first := statement_abreast together short left right same (Nat.lt_succ_self _) trivial
      have unfold_left := statements_succ nested frames fuel left
      have unfold_right := statements_succ nested' frames' fuel' right
      rw [if_neg inside] at unfold_left
      rw [if_neg inside'] at unfold_right
      generalize result : statement nested frames left = one at first unfold_left
      generalize result' : statement nested' frames' right = two at first unfold_right
      cases first with
      | tooDeep near =>
          rw [unfold_left, unfold_right]
          exact .inl (.tooDeep _ _)
      | scarce never => exact never.elim
      | abandoned near =>
          rw [unfold_left, unfold_right]
          exact .inl (.abandoned _)
      | read equal near few' _ =>
          cases equal
          have fewer := fewer_behind inside (Nat.lt_succ_self _) few'
          rcases ih (by omega) fuel fuel' (by omega) (by omega) (ahead_of_advance near)
            (by omega) with broken | ⟨braces, reports⟩ |
            ⟨nodes, after, count, final, read, rounds, short, stream, diagnostics⟩
          · rw [unfold_left, unfold_right]
            exact .inl (broken.bind _ _)
          · exact .inr (.inl ⟨braces, .of_read sound inside result reports⟩)
          · refine .inr (.inr ⟨_ :: nodes, after, count + 1, final, ?_,
              .read inside' result' rounds, by omega, stream, diagnostics⟩)
            rw [unfold_left]
            simp only [read, Outcome.read_bind, pure_apply]
      | failed near few' =>
          by_cases braces : braced
          · exact .inr (.inl ⟨braces, .of_failed sound inside result⟩)
          have fewer := fewer_resumed inside (Nat.lt_succ_self _) few'
          rcases near.resume kind spent with resumed | ⟨allowed, -⟩
          · rcases ih (by omega) fuel fuel' (by omega) (by omega) (ahead_of_advance resumed)
              (by omega) with broken | ⟨allowed, -⟩ |
              ⟨nodes, after, count, final, read, rounds, short, rest⟩
            · rw [unfold_left, unfold_right]
              exact .inl broken
            · exact absurd allowed braces
            · exact .inr (.inr ⟨nodes, after, count + 1, final, by rw [unfold_left]; exact read,
                .failed inside' result' rounds, by omega, rest⟩)
          · exact absurd allowed braces
      | parted parts void =>
          refine .inr (.inl ⟨parts.1, ?_⟩)
          cases one with
          | read node after => exact void.elim
          | abandoned error => exact void.elim
          | failed after => exact .of_failed sound inside result
          | tooDeep after =>
              intro nodes last read
              rw [unfold_left] at read
              cases read

theorem program_later (limit bound fuel : Nat) (tokens : List Token) (cursor : Cursor)
    (stream : cursor.tokens = tokens)
    (line : tokens ≠ [] → cursor.endLine = (Cursor.ofTokens tokens).endLine)
    (enough : tokens.length < bound) (room : tokens.length < fuel) :
    (∃ nodes after after', program limit tokens = .read nodes after ∧
        statements (expression bound limit) (limit - 2) fuel cursor = .read nodes after' ∧
        after'.diagnostics = cursor.diagnostics ++ after.diagnostics) ∨
      (program limit tokens).Broken
        (statements (expression bound limit) (limit - 2) fuel cursor) := by
  by_cases empty : tokens = []
  · have ended : cursor.current.kind = .eof := by
      rw [cursor.current_kind, stream, empty]
      rfl
    obtain ⟨fuel, rfl⟩ : ∃ less, fuel = less + 1 := ⟨fuel - 1, by omega⟩
    refine .inl ⟨[], .ofTokens [], cursor, ?_, ?_, ?_⟩
    · rw [empty]
      rfl
    · rw [statements_succ, if_pos ended]
    · exact (List.append_nil _).symm
  let alone := Cursor.ofTokens tokens
  have shifted : cursor = alone.shift (cursor.depth - alone.depth) cursor.diagnostics := by
    have depth : alone.depth + (cursor.depth - alone.depth) = cursor.depth := by omega
    have diagnostics : cursor.diagnostics ++ alone.diagnostics = cursor.diagnostics :=
      List.append_nil _
    have same : cursor.tokens = alone.tokens := stream
    rw [Cursor.shift, depth, diagnostics, ← line empty, ← same]
  have abreast := program_abreast (.later tokens (cursor.depth - alone.depth) cursor.diagnostics)
    trivial trivial limit limit (.inl rfl) bound fuel ⟨shifted, List.suffix_refl tokens⟩ enough room
  generalize result : program limit tokens = first at abreast ⊢
  generalize statements (expression bound limit) (limit - 2) fuel cursor = second at abreast ⊢
  cases abreast with
  | read same near few _ =>
      cases eq_of_forall₂ same
      rcases near with ⟨rfl, -⟩
      exact .inl ⟨_, _, _, rfl, rfl, rfl⟩
  | failed near few => exact absurd result (statements_unfailed _ _ _ _ _)
  | tooDeep near => exact .inr (.tooDeep _ _)
  | scarce never => exact never.elim
  | abandoned near kind malformed => exact .inr (.abandoned _)
  | parted parts void => exact absurd trivial parts.2

theorem readTokens_total (limit : Nat) (tokens : List Token) (written : Written tokens) :
    ∃ reading, readTokens limit tokens = .ok reading := by
  have abreast := program_abreast (.later tokens 0 []) trivial trivial limit limit (.inl rfl)
    (tokens.length + 1) (tokens.length + 1) ⟨rfl, List.suffix_refl tokens⟩ (Nat.lt_succ_self _) (Nat.lt_succ_self _)
  generalize result : program limit tokens = first at abreast
  generalize statements _ _ _ _ = second at abreast
  cases abreast with
  | read same near few _ => exact ⟨_, readTokens_of_read result⟩
  | failed near few => exact absurd result (statements_unfailed _ _ _ _ _)
  | tooDeep near => exact ⟨_, readTokens_of_tooDeep result⟩
  | scarce never => exact never.elim
  | abandoned near kind malformed =>
      rcases written.numeral near.2 kind with ⟨value, read⟩
      rw [malformed] at read
      cases read
  | parted parts void => exact absurd trivial parts.2

theorem program_behind {limit : Nat} {first rest : List Token} {nodes : List Node} {count : Nat}
    {final : Cursor}
    (rounds : Rounds (expression ((first ++ rest).length + 1) limit) (limit - 2)
      (.ofTokens (first ++ rest)) nodes count final)
    (few : count ≤ first.length) (stream : final.tokens = rest) :
    (∃ others after after', program limit rest = .read others after ∧
        program limit (first ++ rest) = .read (nodes ++ others) after' ∧
        after'.diagnostics = final.diagnostics ++ after.diagnostics) ∨
      (program limit rest).Broken (program limit (first ++ rest)) := by
  have length : (first ++ rest).length = first.length + rest.length := List.length_append
  have line : rest ≠ [] → final.endLine = (Cursor.ofTokens rest).endLine := by
    intro filled
    rw [(rounds.leads (expression_sound _ _)).endLine]
    simp only [Cursor.ofTokens, List.getLast?_append, List.getLast?_eq_some_getLast filled,
      Option.some_or]
  have loop : program limit (first ++ rest) =
      (statements (expression ((first ++ rest).length + 1) limit) (limit - 2)
        ((first ++ rest).length + 1 - count) final).bind fun others => pure (nodes ++ others) := by
    rw [program, ← statements_of_rounds rounds]
    congr 1
    omega
  rcases program_later limit ((first ++ rest).length + 1) ((first ++ rest).length + 1 - count) rest
    final stream line (by omega) (by omega) with
    ⟨others, after, after', alone, result, diagnostics⟩ | broken
  · rw [result] at loop
    exact .inl ⟨others, after, after', alone, loop, diagnostics⟩
  · rw [loop]
    exact .inr (broken.bind_right _)

theorem reading_behind {limit : Nat} {first rest : List Token} {nodes : List Node} {count : Nat}
    {final : Cursor}
    (rounds : Rounds (expression ((first ++ rest).length + 1) limit) (limit - 2)
      (.ofTokens (first ++ rest)) nodes count final)
    (few : count ≤ first.length) (stream : final.tokens = rest) {whole other : Reading}
    (read : readTokens limit (first ++ rest) = .ok whole) (kept : ¬ whole.BrokenOff)
    (behind : readTokens limit rest = .ok other) :
    whole = ⟨nodes ++ other.statements, final.diagnostics ++ other.diagnostics⟩ := by
  rcases program_behind rounds few stream with ⟨others, after, after', alone, result, quiet⟩ | broken
  · rw [readTokens_of_read result] at read
    rw [readTokens_of_read alone] at behind
    cases read
    cases behind
    rw [quiet]
  · rcases program_of_readTokens read kept with ⟨last, result, -⟩
    exact absurd result (broken.unread _ _)

/-- The rounds that a list takes before other tokens: the statements that it has alone are read, its
diagnostics are found, and the loop comes to those tokens. -/
def ReadsFirst (limit : Nat) (first rest : List Token) (alone : Reading) : Prop :=
  ∃ count final, Rounds (expression ((first ++ rest).length + 1) limit) (limit - 2)
      (.ofTokens (first ++ rest)) alone.statements count final ∧
    count ≤ first.length ∧ final.tokens = rest ∧ final.diagnostics = alone.diagnostics

/-- A list up to a semicolon, read before other tokens and read alone: the loop over statements is broken
off in both, or it goes the same way in both. -/
theorem program_before (limit : Nat) {first tail rest front : List Token} {semicolon : Token}
    {braced : Prop} (shape : first = front ++ [semicolon]) (kind : semicolon.kind = .semicolon)
    (allowed : ∀ token ∈ front, token.kind ≠ .eof ∧ (braced ∨ token.kind.braces = 0))
    (spent : ∀ token ∈ tail, token.kind = .eof) (short : tail.length ≤ rest.length) :
    (program limit (first ++ tail)).Broken (program limit (first ++ rest)) ∨
      (braced ∧ ∀ nodes after, program limit (first ++ tail) = .read nodes after →
        after.diagnostics ≠ []) ∨
      ∃ nodes after, program limit (first ++ tail) = .read nodes after ∧
        ReadsFirst limit first rest ⟨nodes, after.diagnostics⟩ := by
  have length (tokens : List Token) : (first ++ tokens).length = first.length + tokens.length :=
    List.length_append
  have ahead : Ahead braced semicolon tail rest (.ofTokens (first ++ tail))
      (.ofTokens (first ++ rest)) := by
    subst shape
    refine .inr ⟨front, allowed, List.append_assoc _ _ _, List.append_assoc _ _ _, ?_, rfl⟩
    cases front <;> rfl
  have together : Together (.upTo braced semicolon kind tail rest spent) ((first ++ tail).length + 1)
      limit limit (expression ((first ++ tail).length + 1) limit)
      (expression ((first ++ rest).length + 1) limit) :=
    expression_together _ _ _ _ (Nat.le_refl _) (by rw [length, length]; omega) (.inl rfl)
  rcases rounds_before kind spent (expression_sound _ _) (together.above 2) (Nat.le_refl _)
    ((first ++ tail).length + 1) ((first ++ rest).length + 1) (Nat.le_refl _)
    (by rw [length, length]; omega) ahead (Nat.lt_succ_self _) with
    broken | ⟨braces, reports⟩ | ⟨nodes, after, count, final, result, rounds, few, stream, quiet⟩
  · exact .inl broken
  · refine .inr (.inl ⟨braces, fun nodes after result quiet => ?_⟩)
    have reported := reports nodes after result
    rw [quiet] at reported
    exact absurd reported (Nat.not_lt_zero _)
  · refine .inr (.inr ⟨nodes, after, result, count, final, rounds, ?_, stream, quiet⟩)
    have few : count + tail.length ≤ (first ++ tail).length := few
    rw [length] at few
    omega

theorem plain_reads_first {limit : Nat} {first rest front : List Token} {semicolon : Token}
    (shape : first = front ++ [semicolon]) (kind : semicolon.kind = .semicolon)
    (plain : ∀ token ∈ front, token.kind.braces = 0 ∧ token.kind ≠ .eof)
    {whole alone : Reading} (read : readTokens limit (first ++ rest) = .ok whole)
    (kept : ¬ whole.BrokenOff) (before : readTokens limit first = .ok alone) :
    ReadsFirst limit first rest alone := by
  have allowed : ∀ token ∈ front, token.kind ≠ .eof ∧ (False ∨ token.kind.braces = 0) :=
    fun token member => ⟨(plain token member).2, .inr (plain token member).1⟩
  have spent : ∀ token ∈ ([] : List Token), token.kind = .eof := by simp
  rcases program_before limit shape kind allowed spent (Nat.zero_le rest.length) with
    broken | ⟨never, -⟩ | ⟨nodes, after, result, reads⟩
  · rcases program_of_readTokens read kept with ⟨after, result, -⟩
    exact absurd result (broken.unread _ _)
  · exact never.elim
  · rw [List.append_nil] at result
    rw [readTokens_of_read result] at before
    cases before
    exact reads

theorem clean_reads_first {limit : Nat} {first tail rest front : List Token} {semicolon : Token}
    (shape : first = front ++ [semicolon]) (kind : semicolon.kind = .semicolon)
    (endless : Endless first) (spent : ∀ token ∈ tail, token.kind = .eof)
    (short : tail.length ≤ rest.length) {nodes : List Node}
    (clean : readTokens limit (first ++ tail) = .ok ⟨nodes, []⟩) :
    ReadsFirst limit first rest ⟨nodes, []⟩ := by
  have allowed : ∀ token ∈ front, token.kind ≠ .eof ∧ (True ∨ token.kind.braces = 0) := by
    intro token member
    refine ⟨endless token ?_, .inl trivial⟩
    rw [shape]
    exact List.mem_append_left _ member
  rcases program_of_clean clean with ⟨after, result, quiet⟩
  rcases program_before limit shape kind allowed spent short with
    broken | ⟨-, reported⟩ | ⟨others, last, result', reads⟩
  · exact absurd result (broken.symm.unread _ _)
  · exact absurd quiet (reported nodes after result)
  · rw [result] at result'
    cases result'
    rw [quiet] at reads
    exact reads

theorem clean_joined {limit : Nat} {first tail rest front : List Token} {semicolon : Token}
    (shape : first = front ++ [semicolon]) (kind : semicolon.kind = .semicolon)
    (endless : Endless first) (spent : ∀ token ∈ tail, token.kind = .eof)
    (short : tail.length ≤ rest.length) {nodes others : List Node}
    (clean : readTokens limit (first ++ tail) = .ok ⟨nodes, []⟩)
    (behind : readTokens limit rest = .ok ⟨others, []⟩) :
    readTokens limit (first ++ rest) = .ok ⟨nodes ++ others, []⟩ := by
  rcases clean_reads_first shape kind endless spent short clean with
    ⟨count, final, rounds, few, stream, quiet⟩
  rcases program_of_clean behind with ⟨after, alone, silent⟩
  rcases program_behind rounds few stream with ⟨others', after', last, again, whole, found⟩ | broken
  · rw [alone] at again
    cases again
    rw [quiet, silent] at found
    rw [readTokens_of_read whole, found]
    rfl
  · exact absurd alone (broken.symm.unread _ _)

/-- Tokens up to a semicolon, without braces or read without a report, keep their statements and their
diagnostics before any other tokens, and so do those behind them: the reading of the whole is the one
after the other, unless the stack does not suffice. -/
theorem semicolon_divides_reading (limit : Nat) (first rest : List Token) (endless : Endless first)
    (ended : ∃ front semicolon, first = front ++ [semicolon] ∧ semicolon.kind = .semicolon)
    (written : Written (first ++ rest))
    (harmless : (∀ token ∈ first, token.kind ≠ .lbrace ∧ token.kind ≠ .rbrace) ∨
      ∃ statements, readTokens limit first = .ok ⟨statements, []⟩) :
    ∃ before behind whole, readTokens limit first = .ok before ∧
      readTokens limit rest = .ok behind ∧ readTokens limit (first ++ rest) = .ok whole ∧
      (¬ whole.BrokenOff → whole = ⟨before.statements ++ behind.statements,
        before.diagnostics ++ behind.diagnostics⟩) := by
  rcases List.forall_mem_append.mp written with ⟨written_first, written_rest⟩
  rcases readTokens_total limit first written_first with ⟨alone, before⟩
  rcases readTokens_total limit rest written_rest with ⟨other, behind⟩
  rcases readTokens_total limit (first ++ rest) written with ⟨whole, read⟩
  refine ⟨alone, other, whole, before, behind, read, fun kept => ?_⟩
  rcases ended with ⟨front, semicolon, shape, kind⟩
  have reads : ReadsFirst limit first rest alone := by
    rcases harmless with plain | ⟨nodes, clean⟩
    · apply plain_reads_first shape kind _ read kept before
      intro token member
      have inside : token ∈ first := by
        rw [shape]
        exact List.mem_append_left _ member
      refine ⟨?_, endless token inside⟩
      have flat := plain token inside
      revert flat
      cases token.kind <;> simp [TokenKind.braces]
    · rw [clean] at before
      cases before
      rw [← List.append_nil first] at clean
      exact clean_reads_first shape kind endless (by simp) (Nat.zero_le _) clean
  rcases reads with ⟨count, final, rounds, few, stream, diagnostics⟩
  rw [reading_behind rounds few stream read kept behind, diagnostics]

/-- `let 5;` fails, `x` behind it is read, and the brace behind that fails again. -/
theorem failed_binding_divides :
    let first : List Token := [⟨.letWord, "let", 1, 0⟩, ⟨.int, "5", 1, 4⟩, ⟨.semicolon, ";", 1, 5⟩]
    let rest : List Token := [⟨.ident, "x", 2, 0⟩, ⟨.rbrace, "\x7d", 2, 2⟩]
    Endless first ∧ Written (first ++ rest) ∧
      readTokens 30 first = .ok ⟨[], [⟨.expected .ident .int, 1⟩]⟩ ∧
      readTokens 30 rest = .ok ⟨[.statement (.identifier ⟨"x", 2, 0⟩) 2], [⟨.noOperand .rbrace, 2⟩]⟩ ∧
      readTokens 30 (first ++ rest) = .ok ⟨[.statement (.identifier ⟨"x", 2, 0⟩) 2],
        [⟨.expected .ident .int, 1⟩, ⟨.noOperand .rbrace, 2⟩]⟩ := by
  intro first rest
  have endless : Endless first := by simp [Endless, first]
  have written : Written (first ++ rest) := by
    have five : Text.Numeral "5" 5 := ⟨[5], by decide, by decide, by decide, rfl⟩
    simp only [Written, first, rest, List.cons_append, List.nil_append, List.forall_mem_cons]
    simp [Exists.intro 5 five]
  have alone : readTokens 30 first = .ok ⟨[], [⟨.expected .ident .int, 1⟩]⟩ := by rfl
  have other : readTokens 30 rest =
      .ok ⟨[.statement (.identifier ⟨"x", 2, 0⟩) 2], [⟨.noOperand .rbrace, 2⟩]⟩ := by rfl
  have kept : ∀ whole, readTokens 30 (first ++ rest) = .ok whole → ¬ whole.BrokenOff := by
    intro whole read
    have few : whole = ⟨_, [⟨.expected .ident .int, 1⟩, ⟨.noOperand .rbrace, 2⟩]⟩ :=
      Except.ok.inj (read.symm.trans rfl)
    rintro ⟨line, broken⟩
    simp [few] at broken
  rcases semicolon_divides_reading 30 first rest endless ⟨first.take 2, _, rfl, rfl⟩ written
    (.inl (by simp [first])) with ⟨before, behind, whole, read, read', result, divided⟩
  rw [alone] at read
  rw [other] at read'
  cases read
  cases read'
  refine ⟨endless, written, alone, other, ?_⟩
  rw [result, divided (kept whole result)]
  rfl

end Grammar

end Marmoset
