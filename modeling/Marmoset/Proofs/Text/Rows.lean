import Marmoset.Text.Line

/-!
The rows of a text are what is left when it is split at its line feeds. They are the lines that an editor
shows, as long as no character but a line feed, or a carriage return before one, breaks a line.
-/

namespace Marmoset.Text

/-- The rows of a text: only a line feed ends one. -/
def rows (text : List Char) : List (List Char) := text.splitOn '\n'

theorem rows_cons (c : Char) (text : List Char) :
    rows (c :: text) = if c = '\n' then [] :: rows text else (rows text).modifyHead (c :: ·) := by
  rw [rows, List.splitOn_cons_eq_if_modifyHead]
  simp only [beq_iff_eq]
  rfl

theorem length_rows (text : List Char) : (rows text).length = text.count '\n' + 1 := by
  induction text with
  | nil => rfl
  | cons c text ih =>
      rw [rows_cons]
      split
      · next broken => rw [broken, List.count_cons_self, List.length_cons, ih]
      · next other => rw [List.count_cons_of_ne other, List.length_modifyHead, ih]

theorem head?_rows (text : List Char) : (rows text).head? = some (text.takeWhile (· ≠ '\n')) := by
  induction text with
  | nil => rfl
  | cons c text ih =>
      rw [rows_cons]
      split
      · next broken => simp [broken]
      · next other => simp [other, ih]

theorem rows_cases (text : List Char) : rows text = [text] ∨
    ∃ first rest, text = first ++ '\n' :: rest ∧ rows text = first :: rows rest := by
  by_cases broken : '\n' ∈ text
  · obtain ⟨first, rest, rfl, plain⟩ := List.eq_append_cons_of_mem broken
    refine .inr ⟨first, rest, rfl, ?_⟩
    rw [rows, List.splitOn_append_cons_self, List.splitOn_eq_singleton plain]
    rfl
  · exact .inl (List.splitOn_eq_singleton broken)

def trimmed (row : List Char) : List Char :=
  if row.getLast? = some '\r' then row.dropLast else row

theorem trimmed_cases (row : List Char) : row = trimmed row ∨ row = trimmed row ++ ['\r'] := by
  unfold trimmed
  split
  · next final =>
      obtain ⟨front, rfl⟩ := List.getLast?_eq_some_iff.mp final
      rw [List.dropLast_concat]
      exact .inr rfl
  · exact .inl rfl

/-- Nothing in a row breaks a line, but for a carriage return at its end. -/
def Unbroken (row : List Char) : Prop := ∀ c ∈ trimmed row, isLineBreak c = false

instance : DecidablePred Unbroken := fun row =>
  List.decidableBAll (fun c => isLineBreak c = false) (trimmed row)

theorem linesFrom_unbroken {part : List Char} (unbroken : ∀ c ∈ part, isLineBreak c = false)
    (body rest : List Char) : linesFrom body (part ++ rest) = linesFrom (part.reverse ++ body) rest := by
  induction part generalizing body with
  | nil => rfl
  | cons c part ih =>
      obtain ⟨plain, unbroken⟩ := List.forall_mem_cons.mp unbroken
      have other : c ≠ '\r' := by
        rintro rfl
        exact absurd plain (by decide)
      rw [List.cons_append, linesFrom, if_neg (by simp [plain]), ih unbroken, List.reverse_cons,
        List.append_assoc]
      · rfl
      · exact fun _ same => absurd same other

theorem linesFrom_row {row : List Char} (unbroken : Unbroken row) (rest : List Char) :
    ∃ ending, linesFrom [] (row ++ '\n' :: rest) = ⟨trimmed row, ending⟩ :: linesFrom [] rest := by
  have lines := linesFrom_unbroken unbroken []
  have cases := trimmed_cases row
  generalize trimmed row = part at lines cases ⊢
  rcases cases with rfl | rfl
  · exact ⟨['\n'], by simp [lines, linesFrom, isLineBreak]⟩
  · exact ⟨['\r', '\n'], by simp [lines, linesFrom]⟩

theorem linesFrom_last {row : List Char} (unbroken : Unbroken row) :
    (((linesFrom [] row)[0]?).map (·.body.length)).getD 0 = (trimmed row).length := by
  have lines := linesFrom_unbroken unbroken []
  have cases := trimmed_cases row
  generalize trimmed row = part at lines cases ⊢
  rcases cases with rfl | rfl
  · have whole := lines []
    rw [List.append_nil, List.append_nil, linesFrom] at whole
    rw [whole]
    cases row <;> simp
  · simp [lines, linesFrom, isLineBreak]

/-- Where the rows up to some number are unbroken, the lines up to there are these rows. -/
theorem length_line {text : List Char} {number : Nat} {row : List Char}
    (found : (rows text)[number]? = some row)
    (unbroken : ∀ earlier ∈ (rows text).take (number + 1), Unbroken earlier) :
    (((linesFrom [] text)[number]?).map (·.body.length)).getD 0 = (trimmed row).length := by
  induction number generalizing text with
  | zero =>
      rcases rows_cases text with only | ⟨first, rest, rfl, split⟩
      · rw [only] at found unbroken
        cases found
        exact linesFrom_last (unbroken row List.mem_cons_self)
      · rw [split] at found unbroken
        cases found
        obtain ⟨ending, lines⟩ := linesFrom_row (unbroken row List.mem_cons_self) rest
        rw [lines]
        rfl
  | succ number ih =>
      rcases rows_cases text with only | ⟨first, rest, rfl, split⟩
      · rw [only] at found
        cases found
      · rw [split] at found unbroken
        rw [List.take_succ_cons, List.forall_mem_cons] at unbroken
        obtain ⟨ending, lines⟩ := linesFrom_row unbroken.1 rest
        rw [lines]
        exact ih found unbroken.2

end Marmoset.Text
