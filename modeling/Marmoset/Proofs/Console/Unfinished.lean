import Marmoset.Console
import Marmoset.Proofs.Grammar.Shortfall
import Marmoset.Proofs.Text.Blank
import Marmoset.Proofs.Token.Joint

/-!
When the console waits for more. A source that is cut off at the end of a line, and that has no
diagnostics when it goes on, is unfinished unless the cut stands where an operand is due outside every
block: there the missing operand is all that is reported, and the console does not wait.
-/

namespace Marmoset

namespace Lexeme

theorem quoted_tokens (rest : List Char) (place : Place) :
    ∃ token, (quoted rest).tokens place = [token] ∧ (token.kind = .string ∨ token.kind = .illegal) := by
  rw [quoted]
  split
  · exact ⟨_, rfl, .inl rfl⟩
  · exact ⟨_, rfl, .inr rfl⟩

theorem read_divided (c : Char) (rest behind : List Char) (place : Place) :
    read c (rest ++ '\n' :: behind) = read c rest ∨
      ∃ token other, (read c rest).tokens place = [token] ∧ token.Unclosed ∧
        (read c rest).extra = rest.length ∧
        (read c (rest ++ '\n' :: behind)).tokens place = [other] ∧
        (other.kind = .string ∨ other.kind = .illegal) := by
  by_cases quote : c = '"'
  · subst quote
    change quoted (rest ++ '\n' :: behind) = quoted rest ∨ _
    by_cases fewer : (rest.takeWhile (· ≠ '"')).length < rest.length
    · exact .inl (quoted_stopped '\n' behind fewer)
    · rcases quoted_tokens (rest ++ '\n' :: behind) place with ⟨other, single, kind⟩
      have whole : quoted rest = ⟨some (.illegal, '"' :: rest), rest.length⟩ := by
        rw [quoted, if_neg fewer, (unquoted_of_whole fewer).1]
      refine .inr ⟨⟨.illegal, String.ofList ('"' :: rest), place.line, place.column⟩, other, ?_, ?_, ?_,
        single, kind⟩
      · change (quoted rest).tokens place = _
        rw [whole]
        rfl
      · exact ⟨rfl, by rw [String.toList_ofList]; rfl⟩
      · change (quoted rest).extra = _
        rw [whole]
  · exact .inl (read_broken_of_ne quote behind)

end Lexeme

namespace Token

variable {quoted : Prop}

/-- Up to a line break the tokens are shared, except that a quoted text may go over it. -/
theorem scanFrom_shared (skip : Nat) (place : Place) (text behind : List Char)
    (known : ∀ token ∈ scanFrom skip place text, token.Unclosed → quoted) :
    (∀ token ∈ scanFrom skip place text, token.kind = .eof) ∨
      Shared quoted (scanFrom skip place text) (scanFrom skip place (text ++ '\n' :: behind)) := by
  induction text generalizing skip place with
  | nil =>
      refine .inl ?_
      cases skip <;> simp [scanFrom]
  | cons c text ih =>
      cases skip with
      | succ skip => exact ih skip (place.step c) known
      | zero =>
          rw [scanFrom, List.forall_mem_append] at known
          rw [List.cons_append, scanFrom, scanFrom]
          rcases Lexeme.read_divided c text behind place with same |
            ⟨token, other, single, unclosed, whole, single', kind⟩
          · rw [same]
            have rest := ih (Lexeme.read c text).extra (place.step c) known.2
            generalize (Lexeme.read c text).extra = extra at rest ⊢
            rw [Lexeme.tokens]
            split
            · exact rest
            · refine .inr ?_
              rcases rest with ended | shared
              · exact .last (.refl _) ended
              · exact .more _ shared
          · rw [single, single', whole, scanFrom_skip, List.drop_length]
            have open_text := known.1 token (by rw [single]; exact List.mem_cons_self) unclosed
            exact .inr (.last (.inr ⟨open_text, unclosed.1, kind⟩) (by simp [scanFrom]))

theorem scan_shared (front back : String) : (∀ token ∈ scan front, token.kind = .eof) ∨
    Shared (∃ token ∈ scan front, token.Unclosed) (scan front) (scan (front ++ "\n" ++ back)) := by
  have text : (front ++ "\n" ++ back).toList = front.toList ++ '\n' :: back.toList := by
    rw [String.toList_append, String.toList_append, List.append_assoc]
    rfl
  rw [scan, scan, text]
  exact scanFrom_shared 0 .start front.toList back.toList fun token member unclosed =>
    ⟨token, member, unclosed⟩

end Token

/-- More is due where a message says that the end came instead. -/
theorem Reading.unfinished_iff (reading : Reading) : reading.unfinished = true ↔
    ∃ message ∈ reading.errors, "got EOF instead".toList <:+: message.toList := by
  simp only [unfinished, List.any_eq_true, Text.holds_iff]

theorem Text.infix_of_pieces {comma part got found instead : String}
    (same : comma ++ part = got ++ (found ++ instead)) (first second onLine line : String) :
    part.toList <:+: (first ++ second ++ got ++ found ++ instead ++ onLine ++ line).toList := by
  refine ⟨(first ++ second ++ comma).toList, (onLine ++ line).toList, ?_⟩
  have joined (rest : String) : comma ++ (part ++ rest) = got ++ (found ++ (instead ++ rest)) := by
    rw [← String.append_assoc, same, String.append_assoc, String.append_assoc]
  rw [← String.toList_append, ← String.toList_append]
  simp only [String.append_assoc, joined]

theorem Diagnostic.text_atEnd (wanted : TokenKind) (line : Int) :
    "got EOF instead".toList <:+: (text ⟨.expected wanted .eof, line⟩).toList := by
  have pieces : ", " ++ "got EOF instead" = ", got " ++ (TokenKind.eof.name ++ " instead") := by decide
  exact Text.infix_of_pieces pieces "expected next token to be " wanted.name " on line " (toString line)

theorem Reading.unfinished_of_atEnd {reading : Reading} {wanted : TokenKind} {line : Int}
    (member : ⟨.expected wanted .eof, line⟩ ∈ reading.diagnostics) : reading.unfinished = true :=
  reading.unfinished_iff.mpr ⟨_, List.mem_map_of_mem member, Diagnostic.text_atEnd wanted line⟩

/-- What is read of a source up to a line break, where the whole source has no diagnostics. -/
theorem Grammar.program_curtailed {limit : Nat} {front back : String} {nodes : List Node}
    (clean : Grammar.read limit (front ++ "\n" ++ back) = .ok ⟨nodes, []⟩) :
    Curtailed (∃ token ∈ Token.scan front, token.Unclosed) (program limit (Token.scan front)) := by
  rcases Token.scan_shared front back with ended | shared
  · exact statements_over _ ended (.inl rfl)
  · rcases program_of_clean clean with ⟨after, result, quiet⟩
    have whole : (program limit (Token.scan (front ++ "\n" ++ back))).Clean := by
      rw [result]
      exact quiet
    refine statements_curtailed (expression_trailing _ _ _) (expression_sound _ _) _ _ ?_ whole
    exact ⟨shared, rfl⟩

theorem Console.submit_unfinished {console : Console} {line : String} {reading : Reading}
    (read : Grammar.read console.session.limit ("\n".intercalate (console.pending ++ [line])) =
      .ok reading) (unfinished : reading.unfinished = true) (filled : Text.trim line ≠ "") :
    console.submit line = .ok ⟨"", some { console with pending := console.pending ++ [line] }⟩ := by
  simp only [submit, read, unfinished, filled, ne_eq, not_false_eq_true, decide_true, Bool.and_self,
    if_true]

/-- A source without diagnostics that is cut off at a line break has none either, or it is unfinished, or
all that is missed is an operand, at the end or at a quoted text that is still open. The console waits
for more where a source is unfinished and its last line is not blank. -/
theorem cut_source_unfinished (limit : Nat) (front back : String) (nodes : List Node)
    (clean : Grammar.read limit (front ++ "\n" ++ back) = .ok ⟨nodes, []⟩) :
    ∃ reading, Grammar.read limit front = .ok reading ∧
      (¬ reading.BrokenOff → reading.diagnostics ≠ [] → reading.unfinished = true ∨
        ∃ kind line, reading.diagnostics = [⟨.noOperand kind, line⟩] ∧
          (kind = .eof ∨ (kind = .illegal ∧ ∃ token ∈ Token.scan front, token.Unclosed))) ∧
      (reading.unfinished = true → ∀ (console : Console) (line : String),
        console.session.limit = limit → "\n".intercalate (console.pending ++ [line]) = front →
        Text.trim line ≠ "" → console.submit line =
          .ok ⟨"", some { console with pending := console.pending ++ [line] }⟩) := by
  have waits (reading : Reading) (read : Grammar.read limit front = .ok reading)
      (unfinished : reading.unfinished = true) (console : Console) (line : String)
      (stack : console.session.limit = limit)
      (source : "\n".intercalate (console.pending ++ [line]) = front) (filled : Text.trim line ≠ "") :
      console.submit line = .ok ⟨"", some { console with pending := console.pending ++ [line] }⟩ := by
    subst stack source
    exact Console.submit_unfinished read unfinished filled
  have curtailed := Grammar.program_curtailed clean
  cases result : Grammar.program limit (Token.scan front) with
  | failed after => exact absurd result (Grammar.statements_unfailed _ _ _ _ _)
  | abandoned error =>
      rw [result] at curtailed
      exact curtailed.elim
  | tooDeep after =>
      have read := Grammar.readTokens_of_tooDeep result
      refine ⟨_, read, fun kept => absurd ?_ kept, waits _ read⟩
      exact ⟨after.current.line, List.mem_append_right _ List.mem_cons_self⟩
  | read statements after =>
      have read := Grammar.readTokens_of_read result
      rw [result] at curtailed
      refine ⟨_, read, fun _ filled => ?_, waits _ read⟩
      rcases curtailed with quiet | ⟨wanted, line, member⟩ | wanting
      · exact absurd quiet filled
      · exact .inl (Reading.unfinished_of_atEnd member)
      · exact .inr wanting

/-- A function whose body is cut off behind an operator. -/
theorem cut_body_unfinished :
    Grammar.read standardLimit ("fn(x) \x7b x +" ++ "\n" ++ "1 \x7d") =
        .ok ⟨[.statement (.function [⟨"x", 1, 3⟩] (.block [.statement (.binary (.identifier ⟨"x", 1, 8⟩)
          .add (.integer 1 2) 1) 1] 1) 1) 1], []⟩ ∧
      (Console.start .new false).submit "fn(x) \x7b x +" =
        .ok ⟨"", some ⟨.new, false, ["fn(x) \x7b x +"]⟩⟩ := by
  have clean : Grammar.read standardLimit ("fn(x) \x7b x +" ++ "\n" ++ "1 \x7d") =
      .ok ⟨[.statement (.function [⟨"x", 1, 3⟩] (.block [.statement (.binary (.identifier ⟨"x", 1, 8⟩)
        .add (.integer 1 2) 1) 1] 1) 1) 1], []⟩ := by rfl
  refine ⟨clean, ?_⟩
  rcases cut_source_unfinished standardLimit _ _ _ clean with ⟨reading, read, -, waits⟩
  have there : Grammar.read standardLimit "fn(x) \x7b x +" =
      .ok ⟨[], [⟨.noOperand .eof, 1⟩, ⟨.expected .rbrace .eof, 1⟩]⟩ := by rfl
  rw [there] at read
  cases read
  exact waits rfl (Console.start .new false) _ rfl rfl (by decide +kernel)

/-- A sum that is cut off behind its operator: the line below would mend it, but the console reports it. -/
theorem cut_sum_reported :
    Grammar.read standardLimit ("1 +" ++ "\n" ++ "2") =
        .ok ⟨[.statement (.binary (.integer 1 1) .add (.integer 2 2) 1) 1], []⟩ ∧
      Grammar.read standardLimit "1 +" = .ok ⟨[], [⟨.noOperand .eof, 1⟩]⟩ ∧
      Text.trim "1 +" ≠ "" ∧ (Console.start .new false).submit "1 +" =
        .ok ⟨"parser errors:\n\tno prefix parse function for EOF found on line 1\n",
          some (Console.start .new false)⟩ := by
  refine ⟨rfl, rfl, by decide +kernel, by rfl⟩

end Marmoset
