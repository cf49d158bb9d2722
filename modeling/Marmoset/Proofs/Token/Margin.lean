import Marmoset.Proofs.Token.Spans

/-!
Places by the number of a line and the position where it starts. A lexeme moves the two at once, by the
line feeds in it and to behind the last of them, and scanning with them gives the tokens that scanning
character by character gives.
-/

namespace Marmoset

structure Margin where
  line : Nat
  start : Nat

namespace Margin

def place (margin : Margin) (position : Nat) : Place := ⟨margin.line, position - margin.start⟩

/-- The margin behind characters that are taken at a position. -/
def past (margin : Margin) (position : Nat) (taken : List Char) : Margin :=
  if '\n' ∈ taken then
    ⟨margin.line + taken.count '\n', position + (taken.length - 1 - taken.reverse.idxOf '\n') + 1⟩
  else margin

variable (margin : Margin) (position : Nat)

theorem past_line (taken : List Char) :
    (margin.past position taken).line = margin.line + taken.count '\n' := by
  unfold past
  split
  · rfl
  · next unbroken => rw [List.count_eq_zero.mpr unbroken, Nat.add_zero]

theorem past_break (taken : List Char) :
    (margin.past position (taken ++ ['\n'])).start = position + taken.length + 1 := by
  simp [past]

theorem past_concat (taken : List Char) {c : Char} (plain : c ≠ '\n') :
    (margin.past position (taken ++ [c])).start = (margin.past position taken).start := by
  have apart : '\n' ≠ c := plain.symm
  simp only [past, List.mem_append, List.mem_singleton, apart, or_false, List.length_append,
    List.length_singleton, List.reverse_append, List.reverse_singleton, List.singleton_append,
    List.idxOf_cons_ne _ plain]
  split
  · simp; omega
  · rfl

theorem place_past (taken : List Char) :
    (margin.past position taken).place (position + taken.length) =
      (margin.place position).after taken := by
  induction taken using List.reverseRecOn with
  | nil => simp [past]
  | append_singleton taken c ih =>
      rw [Place.after_concat, ← ih]
      by_cases broken : c = '\n'
      · subst broken
        simp [place, Place.step, past_break, past_line]
        omega
      · simp [place, Place.step, past_concat, past_line, broken]
        omega

end Margin

namespace Token

/-- The tokens of a text, lexeme by lexeme, where it goes on at a position under a margin. -/
def scanUnder (margin : Margin) (position : Nat) : List Char → List Token
  | [] => [⟨.eof, "", margin.line, position - margin.start⟩]
  | c :: rest =>
    let lexeme := Lexeme.read c rest
    let taken := c :: rest.take lexeme.extra
    lexeme.tokens (margin.place position) ++
      scanUnder (margin.past position taken) (position + taken.length) (rest.drop lexeme.extra)
termination_by text => text.length
decreasing_by
  simp only [List.length_drop, List.length_cons]
  omega

theorem scanUnder_eq (margin : Margin) (position : Nat) (text : List Char) :
    scanUnder margin position text = scanFrom 0 (margin.place position) text := by
  fun_induction scanUnder margin position text with
  | case1 margin position => rfl
  | case2 margin position c rest lexeme taken ih => rw [ih, margin.place_past, scanFrom_cons]

/-- Counting line by line finds the same tokens, at the same places. -/
theorem scan_eq_scanUnder (source : String) : scan source = scanUnder ⟨1, 0⟩ 0 source.toList :=
  (scanUnder_eq ⟨1, 0⟩ 0 source.toList).symm

end Token

end Marmoset
