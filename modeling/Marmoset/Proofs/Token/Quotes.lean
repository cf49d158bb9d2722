import Mathlib.Algebra.Ring.Parity
import Marmoset.Proofs.Token.Spans

/-!
Quotes come in pairs. A quoted text that is still open holds one quote and goes up to the end of the text;
every other lexeme holds two or none. So a text leaves a quoted text open just where the number of its
quotes is odd, and where that is even a line break behind it divides the tokens.
-/

namespace Marmoset

theorem unquoted_run {part : Char → Bool} (plain : part '"' = false) (rest : List Char) :
    '"' ∉ rest.take (rest.takeWhile part).length := by
  rw [← List.prefix_iff_eq_take.mp (List.takeWhile_prefix part)]
  intro member
  rw [List.mem_takeWhile_imp member] at plain
  cases plain

namespace Lexeme

variable {c : Char} {rest : List Char} {place : Place}

theorem unquoted_sign (sign : rest.head? = some '=') : '"' ∉ rest.take 1 := by
  cases rest with
  | nil => cases sign
  | cons d rest =>
      cases sign
      simp

theorem read_unquoted (other : c ≠ '"') : '"' ∉ rest.take (read c rest).extra := by
  unfold read
  split
  · simp
  split
  · exact unquoted_run rfl rest
  split
  · exact unquoted_run rfl rest
  split
  · next equal => exact unquoted_sign equal.2
  split
  · next unequal => exact unquoted_sign unequal.2
  · simp

theorem quote_of_unclosed {token : Token} (member : token ∈ (read c rest).tokens place)
    (unclosed : token.Unclosed) : c = '"' := by
  cases read_spelled c rest place with
  | blank nothing blank alone =>
      rw [nothing] at member
      cases member
  | token own only here written =>
      rw [only] at member
      cases List.mem_singleton.mp member
      have illegal : token.kind ≠ .string := by simp [unclosed.1]
      have starts := unclosed.2
      rw [Token.spelling, if_neg illegal] at written
      rw [written] at starts
      exact Option.some.inj starts

/-- A lexeme holds its quotes in pairs, or it is a quoted text that is still open, and then there is no
other quote behind the first. -/
inductive Paired (c : Char) (rest : List Char) (place : Place) (lexeme : Lexeme) : Prop
  | pairs (closed : ∀ token ∈ lexeme.tokens place, ¬ token.Unclosed)
      (even : Even ((c :: rest.take lexeme.extra).count '"'))
  | alone (unclosed : ∃ token ∈ lexeme.tokens place, token.Unclosed)
      (odd : Odd ((c :: rest).count '"'))

theorem quoted_paired (rest : List Char) (place : Place) : Paired '"' rest place (quoted rest) := by
  have plain : '"' ∉ rest.take (rest.takeWhile (· ≠ '"')).length := unquoted_run (by simp) rest
  unfold quoted
  dsimp only
  split
  · next fewer =>
      rcases takeWhile_stops (· ≠ '"') fewer with ⟨d, closing, quote⟩
      obtain rfl : d = '"' := by simpa using quote
      refine .pairs ?_ ?_
      · intro token member unclosed
        cases List.mem_singleton.mp member
        cases unclosed.1
      · rw [List.count_cons_self, List.take_add_one, closing, List.count_append,
          List.count_eq_zero_of_not_mem plain]
        decide
  · next whole =>
      refine .alone ⟨_, List.mem_singleton.mpr rfl, rfl, ?_⟩ ?_
      · rw [String.toList_ofList]
        rfl
      · rw [List.count_cons_self, List.count_eq_zero_of_not_mem (unquoted_of_whole whole).2]
        decide

theorem read_paired (c : Char) (rest : List Char) (place : Place) :
    Paired c rest place (read c rest) := by
  by_cases quote : c = '"'
  · subst quote
    exact quoted_paired rest place
  · refine .pairs (fun token member unclosed => quote (quote_of_unclosed member unclosed)) ?_
    rw [List.count_cons_of_ne quote, List.count_eq_zero_of_not_mem (read_unquoted quote)]
    decide

end Lexeme

namespace Token

/-- Scanning finds a quoted text that is not closed just where quotes are left over. -/
theorem scanFrom_unclosed_iff (skip : Nat) (place : Place) (text : List Char) :
    (∃ token ∈ scanFrom skip place text, token.Unclosed) ↔ Odd ((text.drop skip).count '"') := by
  induction text generalizing skip place with
  | nil =>
      have only : scanFrom skip place [] = [⟨.eof, "", place.line, place.column⟩] := by
        cases skip <;> rfl
      simp [only, Unclosed]
  | cons c rest ih =>
      cases skip with
      | succ skip => exact ih skip (place.step c)
      | zero =>
          rw [scanFrom, List.drop_zero]
          cases Lexeme.read_paired c rest place with
          | pairs closed even =>
              -- The quotes of the lexeme at the head do not count, so those behind it decide.
              have behind : (∃ token ∈ (Lexeme.read c rest).tokens place ++
                    scanFrom (Lexeme.read c rest).extra (place.step c) rest, token.Unclosed) ↔
                  ∃ token ∈ scanFrom (Lexeme.read c rest).extra (place.step c) rest, token.Unclosed := by
                simp only [List.mem_append, or_and_right, exists_or]
                apply or_iff_right
                rintro ⟨token, member, unclosed⟩
                exact closed token member unclosed
              have split : (c :: rest).count '"' =
                  (c :: rest.take (Lexeme.read c rest).extra).count '"' +
                    (rest.drop (Lexeme.read c rest).extra).count '"' := by
                rw [← List.count_append, List.cons_append, List.take_append_drop]
              rw [behind, ih, split, Nat.odd_add', iff_true_right even]
          | alone unclosed odd =>
              rcases unclosed with ⟨token, member, unclosed⟩
              exact iff_of_true ⟨token, List.mem_append_left _ member, unclosed⟩ odd

/-- A text leaves a quoted text open just where it has an odd number of quotes. Where that number is even,
the tokens of the text and a second one behind a line break are those of the first text up to its end, and
then those of the second one, in the same columns and as many lines further down as the first text takes. -/
theorem line_break_divides (first second : String) :
    ((∃ token ∈ scan first, token.Unclosed) ↔ Odd (first.toList.count '"')) ∧
      (Even (first.toList.count '"') → ∃ tokens last, scan first = tokens ++ [last] ∧
        last.kind = .eof ∧ (∀ token ∈ tokens, token.kind ≠ .eof) ∧
        scan (first ++ "\n" ++ second) =
          tokens ++ (scan second).map (below (1 + first.toList.count '\n'))) := by
  have unclosed_iff : (∃ token ∈ scan first, token.Unclosed) ↔ Odd (first.toList.count '"') :=
    scanFrom_unclosed_iff 0 .start first.toList
  refine ⟨unclosed_iff, fun even => ?_⟩
  have closed : ∀ token ∈ scan first, ¬ token.Unclosed := fun token member unclosed =>
    Nat.not_odd_iff_even.mpr even (unclosed_iff.mp ⟨token, member, unclosed⟩)
  rcases scanFrom_ends 0 .start first.toList with ⟨tokens, last, scanned, ends, inside⟩
  have front : scan first = tokens ++ [last] := scanned
  refine ⟨tokens, last, front, ends, inside, ?_⟩
  rw [scan_joined closed, front, List.dropLast_concat]

/-- A quoted text that goes over a line break, and a word behind another one. -/
theorem quoted_break_divides :
    Even ("\"a\nb\"".toList.count '"') ∧
      scan ("\"a\nb\"" ++ "\n" ++ "c") =
        [⟨.string, "a\nb", 1, 0⟩, ⟨.ident, "c", 3, 0⟩, ⟨.eof, "", 3, 1⟩] := by
  have even : Even ("\"a\nb\"".toList.count '"') := by decide
  refine ⟨even, ?_⟩
  rcases (line_break_divides "\"a\nb\"" "c").2 even with ⟨tokens, last, front, -, -, joined⟩
  have scanned : scan "\"a\nb\"" = [⟨.string, "a\nb", 1, 0⟩] ++ [⟨.eof, "", 2, 2⟩] := by decide
  obtain ⟨rfl, -⟩ := List.append_inj' (front.symm.trans scanned) rfl
  rw [joined]
  decide

end Token

end Marmoset
