import Marmoset.Proofs.Grammar.Formation
import Marmoset.Proofs.Grammar.Script
import Marmoset.Proofs.Token.Places

/-!
Diagnostics come in the order of the lines. Some are reported at the current token and others at the one
behind it, so that what counts is the stance of a script: only a phrase that begins on the current token
reports there, and by then nothing has been reported further on.
-/

namespace Marmoset

open Grammar Production

namespace Cursor

def lines (cursor : Cursor) : List Int := cursor.tokens.map Token.line ++ [cursor.endLine]

theorem lines_sublist {start after : Cursor} (part : after.tokens.Sublist start.tokens)
    (ends : after.endLine = start.endLine) : after.lines.Sublist start.lines := by
  rw [lines, lines, ends]
  exact (part.map Token.line).append_right _

theorem advance_lines (cursor : Cursor) : cursor.advance.lines.Sublist cursor.lines :=
  lines_sublist (List.tail_sublist _) rfl

theorem lines_eq (cursor : Cursor) : ∃ rest, cursor.lines = cursor.current.line :: rest := by
  unfold lines current
  cases cursor.tokens with
  | nil => exact ⟨[], rfl⟩
  | cons token tokens => exact ⟨_, rfl⟩

/-- The lines on which something may still be reported. -/
def ahead (cursor : Cursor) (stance : Stance) : List Int :=
  if stance.begins then cursor.lines else cursor.advance.lines

theorem settled_sublist (cursor : Cursor) (stance : Stance) {later : Stance}
    (settled : later.begins = false) : (cursor.ahead later).Sublist (cursor.ahead stance) := by
  rw [ahead, ahead, settled]
  cases stance.begins with
  | true => exact cursor.advance_lines
  | false => exact .refl _

theorem ahead_sublist (cursor : Cursor) (stance : Stance) :
    (cursor.ahead stance).Sublist cursor.lines := by
  rw [ahead]
  split
  · exact .refl _
  · exact cursor.advance_lines

def Begins (cursor : Cursor) : Stance → Prop
  | .on token _ => cursor.current = token
  | _ => True

theorem begins_settled (cursor : Cursor) {stance : Stance} (settled : stance.begins = false) :
    cursor.Begins stance := by
  cases stance with
  | on token opened => cases settled
  | fresh opened | inside opened | held opened | before token opened | failed opened | ended => trivial

/-- The lines that were reported ascend, and those on which something may be reported follow. All of them
are among the lines given. -/
structure Orderly (lines : List Int) (stance : Stance) (cursor : Cursor) : Prop where
  ordered : (cursor.diagnostics.map Diagnostic.line ++ cursor.ahead stance).Pairwise (· ≤ ·)
  reported : ∀ diagnostic ∈ cursor.diagnostics, diagnostic.line ∈ lines
  coming : cursor.lines ⊆ lines
  begun : cursor.Begins stance

namespace Orderly

variable {lines : List Int} {stance : Stance} {cursor : Cursor} {token : Token} {opened : Option Nat}

theorem settle (orderly : cursor.Orderly lines stance) {later : Stance} (settled : later.begins = false) :
    cursor.Orderly lines later := by
  refine ⟨?_, orderly.reported, orderly.coming, cursor.begins_settled settled⟩
  exact orderly.ordered.sublist ((cursor.settled_sublist stance settled).append_left _)

theorem advance (orderly : cursor.Orderly lines stance) : cursor.advance.Orderly lines (.fresh opened) := by
  have settled : cursor.Orderly lines .ended := orderly.settle rfl
  exact ⟨settled.ordered, orderly.reported, List.Subset.trans cursor.advance_lines.subset orderly.coming,
    trivial⟩

theorem look (orderly : cursor.Orderly lines (.fresh opened)) :
    cursor.Orderly lines (.on cursor.current opened) :=
  ⟨orderly.ordered, orderly.reported, orderly.coming, rfl⟩

theorem again (orderly : cursor.Orderly lines (.on token opened)) :
    cursor.Orderly lines (.fresh opened) :=
  ⟨orderly.ordered, orderly.reported, orderly.coming, trivial⟩

theorem inward (orderly : cursor.Orderly lines (.fresh opened)) : cursor.Orderly lines (.inside opened) :=
  ⟨orderly.ordered, orderly.reported, orderly.coming, trivial⟩

theorem outward (orderly : cursor.Orderly lines (.inside opened)) : cursor.Orderly lines (.fresh opened) :=
  ⟨orderly.ordered, orderly.reported, orderly.coming, trivial⟩

theorem resume (orderly : cursor.Orderly lines stance) : cursor.resume.Orderly lines .ended := by
  have settled : cursor.Orderly lines .ended := orderly.settle rfl
  have leads := cursor.resume_leads
  have onward : cursor.resume.advance.lines.Sublist cursor.advance.lines :=
    lines_sublist leads.suffix.sublist.tail leads.endLine
  have part : cursor.resume.lines.Sublist cursor.lines :=
    lines_sublist leads.suffix.sublist leads.endLine
  exact ⟨settled.ordered.sublist (onward.append_left _), orderly.reported,
    List.Subset.trans part.subset orderly.coming, trivial⟩

theorem report {line : Int} {rest : List Int} (orderly : cursor.Orderly lines stance)
    (first : cursor.ahead stance = line :: rest) (problem : Problem) :
    (cursor.report problem line).Orderly lines .ended := by
  have twice : (cursor.diagnostics.map Diagnostic.line ++ [line] ++ cursor.ahead stance).Pairwise
      (· ≤ ·) := by
    have ordered := orderly.ordered
    rw [first] at ordered ⊢
    -- The line comes first among those ahead, so it may stand before them once more.
    simp only [List.pairwise_append, List.pairwise_cons, List.mem_append, List.mem_cons] at ordered ⊢
    grind
  have member : line ∈ cursor.lines := by
    apply (cursor.ahead_sublist stance).subset
    rw [first]
    exact List.mem_cons_self
  refine ⟨?_, ?_, orderly.coming, trivial⟩
  · rw [report_diagnostics, List.map_append]
    exact twice.sublist ((cursor.settled_sublist stance rfl).append_left _)
  · rw [report_diagnostics, List.forall_mem_append, List.forall_mem_singleton]
    exact ⟨orderly.reported, orderly.coming member⟩

theorem report_current (orderly : cursor.Orderly lines (.on token opened)) (problem : Problem) :
    (cursor.report problem token.line).Orderly lines .ended := by
  obtain ⟨rest, first⟩ := cursor.lines_eq
  rw [show cursor.current = token from orderly.begun] at first
  exact orderly.report first problem

theorem report_peek (orderly : cursor.Orderly lines stance) (problem : Problem) :
    (cursor.report problem cursor.peek.line).Orderly lines .ended := by
  obtain ⟨rest, first⟩ := cursor.advance.lines_eq
  have settled : cursor.Orderly lines .ended := orderly.settle rfl
  exact settled.report first problem

end Orderly

end Cursor

def Outcome.Orderly {α : Type} (lines : List Int) (stance : Stance) : Outcome α → Prop
  | .read _ reached => reached.Orderly lines stance
  | .failed reached => reached.Orderly lines .ended
  | .tooDeep reached => reached.Orderly lines .ended
  | .abandoned _ => True

section Script

variable {lines : List Int} {before after : Stance} {cursor : Cursor}

theorem expect_orderly (orderly : cursor.Orderly lines before) (settled : after.begins = false)
    (frames : Nat) (kind : TokenKind) : (expect frames kind cursor).Orderly lines after := by
  rcases expect_cases frames kind cursor with ⟨-, found⟩ | ⟨-, missed⟩ | ⟨-, short⟩
  · have onto : cursor.advance.Orderly lines (.fresh none) := orderly.advance
    exact found ▸ onto.settle settled
  · exact missed ▸ orderly.report_peek _
  · exact short ▸ orderly.settle rfl

theorem Script.orderly {bound left last : Nat} {ample : Prop} {base : Int} {α : Type}
    {production : Production α} (script : Script bound ample base before left production after last)
    (orderly : cursor.Orderly lines before) :
    (production cursor).Orderly lines after := by
  induction script generalizing cursor with
  | pure value order => exact orderly
  | refuse problem shallow => exact orderly.report_current problem
  | room needed frames enough =>
      rw [Production.room]
      split
      · exact orderly
      · exact orderly.settle rfl
  | exhaust => exact orderly.settle rfl
  | abandon kind malformed => trivial
  | current => exact orderly
  | advance => exact orderly.advance
  | @pass _ _ opened _ _ _ _ =>
      have onto : cursor.advance.Orderly lines (.fresh opened) := orderly.advance
      exact onto.settle rfl
  | expect frames kind plain enough => exact expect_orderly orderly rfl frames kind
  | enter frames enough => exact expect_orderly orderly rfl frames .lbrace
  | leave frames enough => exact expect_orderly orderly rfl frames .rbrace
  | @accept _ opened _ kind plain =>
      have onto : cursor.advance.Orderly lines (.fresh opened) := orderly.advance
      rw [Production.accept]
      split
      · exact onto.settle rfl
      · exact orderly
  | look continued ih => exact ih cursor.current orderly.look
  | peek continued ih => exact ih cursor.peek (orderly.settle rfl)
  | again onward ih => exact ih orderly.again
  | keep here plain onward ih => exact ih (orderly.settle rfl)
  | opening brace onward ih => exact ih (orderly.settle rfl)
  | stay onward ih => exact ih (orderly.settle rfl)
  | @bind _ _ _ _ _ _ _ _ _ first next begun continued ih ih' =>
      have ordered := ih orderly
      rw [bind_apply]
      cases result : first cursor with
      | read value reached =>
          rw [result] at ordered
          exact ih' value ordered
      | failed reached | tooDeep reached | abandoned error =>
          rw [result] at ordered
          exact ordered
  | choice positive negative ih ih' =>
      rw [choice_apply]
      split
      · next holds => exact ih holds orderly
      · next fails => exact ih' fails orderly
  | stop positive negative ih ih' =>
      dsimp only
      split
      · exact ih orderly
      · exact ih' orderly.inward
  | close value order otherwise ih =>
      dsimp only
      split
      · exact orderly.settle rfl
      · exact ih orderly
  | @attempt _ _ limit frames _ _ _ _ next other begun onward otherwise ih ih' ih'' =>
      -- Whether the statement is read or fails, the loop goes on behind all that was reported.
      have ordered := ih orderly.outward
      rw [recover]
      cases result : statement (expression bound limit) frames cursor with
      | read node reached =>
          rw [result] at ordered
          exact ih' node ordered
      | failed reached =>
          rw [result] at ordered
          exact ih'' (ordered.settle rfl)
      | tooDeep reached | abandoned error =>
          rw [result] at ordered
          exact ordered
  | resume onward ih => exact ih orderly.resume.advance
  | mend value order onward ih =>
      dsimp only
      split
      · exact orderly.settle rfl
      · exact ih orderly.resume.advance
  | @body _ _ limit frames _ _ begun ih =>
      have ordered := ih cursor.depth orderly.advance
      rw [blockBody]
      cases result : blockStatements (expression bound limit) frames cursor.depth bound cursor.advance with
      | read nodes reached =>
          rw [result] at ordered
          exact ordered.settle rfl
      | failed reached | tooDeep reached | abandoned error =>
          rw [result] at ordered
          exact ordered

end Script

namespace Grammar

variable {limit : Nat} {tokens : List Token} {reading : Reading}

theorem ofTokens_orderly (filled : tokens ≠ [])
    (ascending : (tokens.map Token.line).Pairwise (· ≤ ·)) :
    (Cursor.ofTokens tokens).Orderly (tokens.map Token.line) (.fresh none) := by
  obtain ⟨front, last, rfl⟩ := (List.eq_nil_or_concat' tokens).resolve_left filled
  have lines : (Cursor.ofTokens (front ++ [last])).lines =
      (front ++ [last]).map Token.line ++ [last.line] := by
    simp [Cursor.lines, Cursor.ofTokens]
  refine ⟨?_, List.forall_mem_nil _, ?_, trivial⟩
  · show (Cursor.ofTokens (front ++ [last])).lines.Pairwise (· ≤ ·)
    rw [List.map_append, List.pairwise_append] at ascending
    rw [lines, List.map_append, List.append_assoc, List.pairwise_append]
    have final : ([last].map Token.line ++ [last.line]).Pairwise (· ≤ ·) := by simp
    exact ⟨ascending.1, final, by simpa using ascending.2.2⟩
  · rw [lines]
    simp

/-- Every diagnostic stands on the line of a token; and they are in order, unless reading was broken off. -/
theorem readTokens_orderly (filled : tokens ≠ [])
    (ascending : (tokens.map Token.line).Pairwise (· ≤ ·)) (read : readTokens limit tokens = .ok reading) :
    (∀ diagnostic ∈ reading.diagnostics, diagnostic.line ∈ tokens.map Token.line) ∧
      (¬ reading.BrokenOff → (reading.diagnostics.map Diagnostic.line).Pairwise (· ≤ ·)) := by
  have orderly : (program limit tokens).Orderly (tokens.map Token.line) (.fresh none) :=
    (Script.ofProgram False limit tokens False.elim).orderly (ofTokens_orderly filled ascending)
  cases result : program limit tokens with
  | read nodes after =>
      rw [result] at orderly
      rw [readTokens_of_read result] at read
      cases read
      exact ⟨orderly.reported, fun _ => (List.pairwise_append.mp orderly.ordered).1⟩
  | failed after => exact absurd result (statements_unfailed _ _ _ _ _)
  | tooDeep after =>
      rw [result] at orderly
      rw [readTokens_of_tooDeep result] at read
      cases read
      obtain ⟨rest, first⟩ := after.lines_eq
      have here : after.current.line ∈ tokens.map Token.line := by
        apply orderly.coming
        rw [first]
        exact List.mem_cons_self
      refine ⟨List.forall_mem_append.mpr ⟨orderly.reported, by simpa using here⟩, fun kept => ?_⟩
      exact absurd ⟨after.current.line, by simp⟩ kept
  | abandoned error =>
      rw [readTokens_of_abandoned result] at read
      cases read

theorem scan_lines_ascending (source : String) :
    ((Token.scan source).map Token.line).Pairwise (· ≤ ·) := by
  refine List.pairwise_map.mpr ((Token.scan_occurs source).1.imp fun precedes => ?_)
  rcases precedes.before with earlier | same
  · exact Int.le_of_lt earlier
  · exact Int.le_of_eq same.1

theorem read_orderly {source : String} (read : read limit source = .ok reading) :
    (∀ diagnostic ∈ reading.diagnostics, ∃ token ∈ Token.scan source, token.line = diagnostic.line) ∧
      (¬ reading.BrokenOff → (reading.diagnostics.map Diagnostic.line).Pairwise (· ≤ ·)) := by
  have filled : Token.scan source ≠ [] := by
    obtain ⟨tokens, last, scanned, -⟩ := Token.scanFrom_ends 0 .start source.toList
    rw [Token.scan, scanned]
    exact List.append_ne_nil_of_right_ne_nil _ (List.cons_ne_nil _ _)
  obtain ⟨known, ordered⟩ := readTokens_orderly filled (scan_lines_ascending source) read
  exact ⟨fun diagnostic member => List.mem_map.mp (known diagnostic member), ordered⟩

/-- The diagnostics of a source stand on lines of its tokens, which are lines of the text. They come in the
order of the lines, unless reading was broken off. -/
theorem diagnostics_in_order (limit : Nat) (source : String)
    (short : ∀ token ∈ Token.scan source, token.kind = .int → token.literal.length ≤ 4300) :
    ∃ reading, read limit source = .ok reading ∧
      (∀ diagnostic ∈ reading.diagnostics,
        (∃ token ∈ Token.scan source, token.line = diagnostic.line) ∧
        1 ≤ diagnostic.line ∧ diagnostic.line ≤ 1 + source.toList.count '\n') ∧
      (¬ reading.BrokenOff → (reading.diagnostics.map Diagnostic.line).Pairwise (· ≤ ·)) := by
  obtain ⟨reading, tree, -⟩ := read_formed limit source short
  obtain ⟨known, ordered⟩ := read_orderly tree
  refine ⟨reading, tree, fun diagnostic member => ?_, ordered⟩
  obtain ⟨token, found, same⟩ := known diagnostic member
  obtain ⟨position, occurs⟩ := (Token.scan_occurs source).2 token found
  exact ⟨⟨token, found, same⟩, same ▸ occurs.line_bounds⟩

/-- Two statements fail inside a block, on different lines, and then the block does not end. -/
theorem unclosed_function_in_order :
    let source := "fn() \x7b\n  let 1;\nlet = 2;"
    (∀ token ∈ Token.scan source, token.kind = .int → token.literal.length ≤ 4300) ∧
      ∃ reading, read standardLimit source = .ok reading ∧ ¬ reading.BrokenOff ∧
        reading.diagnostics.map Diagnostic.line = [2, 3, 3] ∧
        (reading.diagnostics.map Diagnostic.line).Pairwise (· ≤ ·) := by
  intro source
  have short : ∀ token ∈ Token.scan source, token.kind = .int → token.literal.length ≤ 4300 := by decide
  have shown : (read standardLimit source).map Reading.diagnostics =
      .ok [⟨.expected .ident .int, 2⟩, ⟨.expected .ident .assign, 3⟩, ⟨.expected .rbrace .eof, 3⟩] := by
    decide
  obtain ⟨reading, tree, -, ordered⟩ := diagnostics_in_order standardLimit source short
  rw [tree] at shown
  have diagnostics := Except.ok.inj shown
  have kept : ¬ reading.BrokenOff := by simp [Reading.BrokenOff, diagnostics]
  exact ⟨short, reading, tree, kept, by rw [diagnostics]; rfl, ordered kept⟩

end Grammar

end Marmoset
