import Marmoset.Proofs.Token.Lexeme

/-!
Scanning two texts joined by a line break. No lexeme but a quoted text goes over the end of a line, so
unless the first text leaves one open, the tokens are those of the first and then those of the second,
moved down by the lines of the first.
-/

namespace Marmoset

theorem takeWhile_stopped (part : Char → Bool) {c : Char} (stop : part c = false) (text rest : List Char) :
    (text ++ c :: rest).takeWhile part = text.takeWhile part := by
  induction text with
  | nil => simp [stop]
  | cons d text ih => simp only [List.cons_append, List.takeWhile_cons, ih]

def Token.Unclosed (token : Token) : Prop :=
  token.kind = .illegal ∧ token.literal.toList.head? = some '"'

namespace Lexeme

variable {c : Char} {rest : List Char} {place : Place}

theorem read_fits (c : Char) (rest : List Char) : (read c rest).extra ≤ rest.length := by
  have form := read_form c rest
  generalize read c rest = lexeme at form
  cases form with
  | blank | single sign => exact Nat.zero_le _
  | number digit => exact (List.takeWhile_prefix _).length_le
  | word start => exact (List.takeWhile_prefix _).length_le
  | closed fewer => exact fewer
  | unclosed plain => exact Nat.le_refl _
  | pair known filled => exact List.length_pos_iff.mpr filled

theorem read_inside {token : Token} (member : token ∈ (read c rest).tokens place) :
    token.kind ≠ .eof := by
  rcases mem_tokens member with ⟨kind, literal, read, rfl⟩
  have form := read_form c rest
  generalize Lexeme.read c rest = lexeme at read form
  cases form with
  | blank => cases read
  | number digit | closed fewer | unclosed plain =>
      cases read
      simp
  | word start =>
      cases read
      simp only [TokenKind.ofWord]
      split <;> decide
  | pair known filled =>
      cases read
      rcases known with rfl | rfl <;> simp
  | single sign =>
      cases read
      simp only [TokenKind.ofChar?]
      split <;> decide

theorem read_unclosed {token : Token} (member : token ∈ (read c rest).tokens place)
    (unclosed : token.Unclosed) : (read c rest).extra = rest.length := by
  rcases mem_tokens member with ⟨kind, literal, read, rfl⟩
  rcases unclosed with ⟨illegal, quote⟩
  rw [String.toList_ofList] at quote
  have form := read_form c rest
  generalize Lexeme.read c rest = lexeme at read form
  cases form with
  | blank => cases read
  | number digit | closed fewer =>
      cases read
      cases illegal
  | unclosed plain => rfl
  | word start =>
      cases read
      simp only [TokenKind.ofWord] at illegal
      split at illegal <;> cases illegal
  | pair known filled =>
      cases read
      rcases known with rfl | rfl <;> cases illegal
  | single sign =>
      cases read
      exact absurd (Option.some.inj quote) sign

theorem quoted_stopped (d : Char) (behind : List Char)
    (closed : (rest.takeWhile (· ≠ '"')).length < rest.length) :
    quoted (rest ++ d :: behind) = quoted rest := by
  have same : (rest ++ d :: behind).takeWhile (· ≠ '"') = rest.takeWhile (· ≠ '"') := by
    rw [List.takeWhile_append, if_neg (Nat.ne_of_lt closed)]
  have longer : (rest.takeWhile (· ≠ '"')).length < (rest ++ d :: behind).length := by
    rw [List.length_append]
    omega
  simp only [quoted, same, if_pos closed, if_pos longer]

theorem read_broken_of_ne (other : c ≠ '"') (behind : List Char) :
    read c (rest ++ '\n' :: behind) = read c rest := by
  have digits := takeWhile_stopped isDigit (c := '\n') rfl rest behind
  have parts := takeWhile_stopped isWordPart (c := '\n') rfl rest behind
  have sign : (rest ++ '\n' :: behind).head? = some '=' ↔ rest.head? = some '=' := by
    cases rest <;> simp
  simp only [read, if_neg other, digits, parts, sign]

theorem read_broken (closed : ∀ token ∈ (read c rest).tokens place, ¬ token.Unclosed)
    (behind : List Char) : read c (rest ++ '\n' :: behind) = read c rest := by
  by_cases quote : c = '"'
  · subst quote
    change quoted (rest ++ '\n' :: behind) = quoted rest
    apply quoted_stopped
    by_contra whole
    have open_token : quoted rest =
        ⟨some (.illegal, '"' :: rest.takeWhile (· ≠ '"')), (rest.takeWhile (· ≠ '"')).length⟩ := by
      rw [quoted, if_neg whole]
    change ∀ token ∈ (quoted rest).tokens place, ¬ token.Unclosed at closed
    rw [open_token] at closed
    refine closed _ (List.mem_singleton.mpr rfl) ⟨rfl, ?_⟩
    rw [String.toList_ofList]
    rfl
  · exact read_broken_of_ne quote behind

end Lexeme

namespace Token

def below (lines : Int) (token : Token) : Token := { token with line := token.line + lines }

theorem scanFrom_below (lines : Int) (skip : Nat) (place : Place) (text : List Char) :
    scanFrom skip ⟨place.line + lines, place.column⟩ text =
      (scanFrom skip place text).map (below lines) := by
  induction text generalizing skip place with
  | nil => cases skip <;> rfl
  | cons c rest ih =>
      have step : Place.step ⟨place.line + lines, place.column⟩ c =
          ⟨(place.step c).line + lines, (place.step c).column⟩ := by
        simp only [Place.step]
        split
        · rw [Int.add_right_comm]
        · rfl
      cases skip with
      | succ skip => rw [scanFrom, scanFrom, step, ih]
      | zero =>
          have head : (Lexeme.read c rest).tokens ⟨place.line + lines, place.column⟩ =
              ((Lexeme.read c rest).tokens place).map (below lines) := by
            unfold Lexeme.tokens
            split <;> rfl
          rw [scanFrom, scanFrom, step, ih, head, List.map_append]

theorem scanFrom_ends (skip : Nat) (place : Place) (text : List Char) :
    ∃ tokens last, scanFrom skip place text = tokens ++ [last] ∧ last.kind = .eof ∧
      ∀ token ∈ tokens, token.kind ≠ .eof := by
  induction text generalizing skip place with
  | nil =>
      refine ⟨[], ⟨.eof, "", place.line, place.column⟩, ?_, rfl, by simp⟩
      cases skip <;> rfl
  | cons c rest ih =>
      cases skip with
      | succ skip => exact ih skip (place.step c)
      | zero =>
          rcases ih (Lexeme.read c rest).extra (place.step c) with ⟨tokens, last, scan, ends, inside⟩
          refine ⟨(Lexeme.read c rest).tokens place ++ tokens, last, ?_, ends, ?_⟩
          · rw [scanFrom, scan, List.append_assoc]
          · exact List.forall_mem_append.mpr ⟨fun token member => Lexeme.read_inside member, inside⟩

theorem unclosed_last {skip : Nat} {place : Place} {text : List Char} {token : Token}
    (member : token ∈ scanFrom skip place text) (unclosed : token.Unclosed) :
    ∃ front last, scanFrom skip place text = front ++ [token, last] := by
  induction text generalizing skip place with
  | nil =>
      have only : token = ⟨.eof, "", place.line, place.column⟩ := by
        cases skip <;> exact List.mem_singleton.mp member
      subst only
      cases unclosed.1
  | cons c rest ih =>
      cases skip with
      | succ skip => exact ih member
      | zero =>
          rw [scanFrom] at member ⊢
          rcases List.mem_append.mp member with head | behind
          · rcases Lexeme.mem_tokens head with ⟨kind, literal, read, same⟩
            have only : (Lexeme.read c rest).tokens place = [token] := by
              rw [Lexeme.tokens, read, same]
            rw [only, Lexeme.read_unclosed head unclosed, scanFrom_skip, List.drop_length]
            exact ⟨[], _, rfl⟩
          · rcases ih behind with ⟨front, last, scan⟩
            exact ⟨(Lexeme.read c rest).tokens place ++ front, last,
              by rw [scan, List.append_assoc]⟩

theorem scanFrom_joined {skip : Nat} {place : Place} {text : List Char} (fits : skip ≤ text.length)
    (closed : ∀ token ∈ scanFrom skip place text, ¬ token.Unclosed) (rest : List Char) :
    scanFrom skip place (text ++ '\n' :: rest) =
      (scanFrom skip place text).dropLast ++ scanFrom 0 ((place.after text).step '\n') rest := by
  induction text generalizing skip place with
  | nil =>
      obtain rfl : skip = 0 := Nat.le_zero.mp fits
      rfl
  | cons c text ih =>
      cases skip with
      | succ skip => exact ih (Nat.le_of_succ_le_succ fits) closed
      | zero =>
          rw [scanFrom, List.forall_mem_append] at closed
          have filled : scanFrom (Lexeme.read c text).extra (place.step c) text ≠ [] := by
            rcases scanFrom_ends (Lexeme.read c text).extra (place.step c) text with
              ⟨tokens, last, scan, -⟩
            simp [scan]
          -- The lexeme at the head lies inside the text, so the line break is not reached by it.
          rw [List.cons_append, scanFrom, scanFrom, Lexeme.read_broken closed.1,
            ih (Lexeme.read_fits c text) closed.2, List.dropLast_append_of_ne_nil filled,
            List.append_assoc]
          rfl

end Token

theorem Place.line_after (place : Place) (text : List Char) :
    (place.after text).line = place.line + text.count '\n' := by
  induction text generalizing place with
  | nil => simp
  | cons c text ih =>
      rw [after_cons, ih, step]
      by_cases newline : c = '\n'
      · rw [if_pos newline, newline, List.count_cons_self]
        push_cast
        omega
      · rw [if_neg newline, List.count_cons_of_ne newline]

/-- Unless the first text leaves a quoted text open, a line break divides the tokens. -/
theorem Token.scan_joined {first : String} (closed : ∀ token ∈ scan first, ¬ token.Unclosed)
    (second : String) : scan (first ++ "\n" ++ second) =
      (scan first).dropLast ++ (scan second).map (below (1 + first.toList.count '\n')) := by
  have text : (first ++ "\n" ++ second).toList = first.toList ++ '\n' :: second.toList := by
    rw [String.toList_append, String.toList_append, List.append_assoc]
    rfl
  have place : (Place.start.after first.toList).step '\n' =
      ⟨Place.start.line + (1 + first.toList.count '\n'), Place.start.column⟩ := by
    rw [Place.step, if_pos rfl, Place.line_after, Int.add_assoc, Int.add_comm 1]
    rfl
  rw [scan, text, scanFrom_joined (Nat.zero_le _) closed, place, scanFrom_below]
  rfl

end Marmoset
