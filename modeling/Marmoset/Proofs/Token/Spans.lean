import Mathlib.Data.List.Forall2
import Mathlib.Data.List.Induction
import Marmoset.Proofs.Token.Joint

/-!
Scanning loses nothing. Every token but the last one stands for a span of the text, in which it is
written out; the spans follow one another without overlap, and between them there is nothing but blank
space. The place of a token is that of its span: the line breaks before it, and the characters since the
last one.
-/

namespace Marmoset

/-- Where the line of a position starts: behind the last line break before it, or with the text. -/
structure LineStart (text : List Char) (position start : Nat) : Prop where
  before : start ≤ position
  fresh : start = 0 ∨ text[start - 1]? = some '\n'
  unbroken : ∀ index, start ≤ index → index < position → text[index]? ≠ some '\n'

structure Place.Marks (place : Place) (text : List Char) (position : Nat) : Prop where
  line : place.line = 1 + (text.take position).count '\n'
  column : ∃ start, LineStart text position start ∧ place.column = position - start

namespace Place

theorem after_concat (place : Place) (before : List Char) (c : Char) :
    place.after (before ++ [c]) = (place.after before).step c :=
  place.after_append before [c]

theorem column_after (before rest : List Char) :
    ∃ start, LineStart (before ++ rest) before.length start ∧
      (Place.start.after before).column = before.length - start := by
  induction before using List.reverseRecOn generalizing rest with
  | nil => exact ⟨0, ⟨Nat.le_refl 0, .inl rfl, fun _ _ below => absurd below (Nat.not_lt_zero _)⟩, rfl⟩
  | append_singleton before c ih =>
      have here : (before ++ [c] ++ rest)[before.length]? = some c := by simp
      rw [after_concat, step, List.length_append, List.length_singleton]
      by_cases broken : c = '\n'
      · subst broken
        refine ⟨before.length + 1, ⟨Nat.le_refl _, .inr here, ?_⟩, ?_⟩
        · intro index above below
          omega
        · rw [if_pos rfl]
          push_cast
          omega
      · rcases ih (c :: rest) with ⟨start, line, column⟩
        rw [← List.append_cons] at here ⊢
        refine ⟨start, ⟨Nat.le_succ_of_le line.before, line.fresh, ?_⟩, ?_⟩
        · intro index above below
          rcases Nat.lt_succ_iff_lt_or_eq.mp below with earlier | rfl
          · exact line.unbroken index above earlier
          · rw [here]
            exact fun same => broken (Option.some.inj same)
        · rw [if_neg broken, column]
          push_cast
          omega

theorem marks_after (before rest : List Char) :
    (Place.start.after before).Marks (before ++ rest) before.length := by
  constructor
  · rw [line_after, List.take_left]
    rfl
  · exact column_after before rest

end Place

structure Span where
  start : Nat
  stop : Nat

namespace Span

def cut (span : Span) (text : List Char) : List Char :=
  (text.drop span.start).take (span.stop - span.start)

def Holds (span : Span) (index : Nat) : Prop := span.start ≤ index ∧ index < span.stop

end Span

namespace Token

/-- How a token is written: a quoted text between quotes, and any other token as its literal. -/
def spelling (token : Token) : List Char :=
  if token.kind = .string then '"' :: (token.literal.toList ++ ['"']) else token.literal.toList

def place (token : Token) : Place := ⟨token.line, token.column⟩

/-- A token is written out in a span of a text, and its place is where the span starts. -/
structure Fills (text : List Char) (token : Token) (span : Span) : Prop where
  filled : span.start < span.stop
  inside : span.stop ≤ text.length
  written : span.cut text = token.spelling
  marks : token.place.Marks text span.start

/-- From a position on, a text consists of the spans of tokens and of blank space. -/
inductive Tiles (text : List Char) : Nat → List Token → List Span → Prop
  | done : Tiles text text.length [] []
  | blank {position : Nat} {tokens : List Token} {spans : List Span} {c : Char}
      (here : text[position]? = some c) (blank : isBlank c = true)
      (rest : Tiles text (position + 1) tokens spans) : Tiles text position tokens spans
  | token {token : Token} {span : Span} {tokens : List Token} {spans : List Span}
      (fills : token.Fills text span) (rest : Tiles text span.stop tokens spans) :
      Tiles text span.start (token :: tokens) (span :: spans)

namespace Tiles

variable {text : List Char} {position : Nat} {tokens : List Token} {spans : List Span}

theorem fills (tiles : Tiles text position tokens spans) :
    List.Forall₂ (Fills text) tokens spans := by
  induction tiles with
  | done => exact .nil
  | blank here blank rest ih => exact ih
  | token fills rest ih => exact .cons fills ih

theorem behind (tiles : Tiles text position tokens spans) {span : Span} (member : span ∈ spans) :
    position ≤ span.start := by
  induction tiles with
  | done => cases member
  | blank here blank rest ih => exact Nat.le_of_succ_le (ih member)
  | token fills rest ih =>
      rcases List.mem_cons.mp member with rfl | later
      · exact Nat.le_refl _
      · exact Nat.le_trans (Nat.le_of_lt fills.filled) (ih later)

theorem ordered (tiles : Tiles text position tokens spans) :
    spans.Pairwise fun earlier later => earlier.stop ≤ later.start := by
  induction tiles with
  | done => exact .nil
  | blank here blank rest ih => exact ih
  | token fills rest ih => exact .cons (fun later member => rest.behind member) ih

theorem outside (tiles : Tiles text position tokens spans) {index : Nat} {c : Char}
    (there : text[index]? = some c) (from_here : position ≤ index)
    (free : ∀ span ∈ spans, ¬ span.Holds index) : isBlank c = true := by
  induction tiles with
  | done =>
      have within := (List.getElem?_eq_some_iff.mp there).1
      omega
  | blank here blank rest ih =>
      rcases Nat.eq_or_lt_of_le from_here with rfl | later
      · rw [here] at there
        exact Option.some.inj there ▸ blank
      · exact ih later free
  | token fills rest ih =>
      rw [List.forall_mem_cons] at free
      have beyond : _ ≤ index := Nat.not_lt.mp fun below => free.1 ⟨from_here, below⟩
      exact ih beyond free.2

end Tiles

end Token

theorem takeWhile_stops (part : Char → Bool) {text : List Char}
    (fewer : (text.takeWhile part).length < text.length) :
    ∃ c, text[(text.takeWhile part).length]? = some c ∧ part c = false := by
  induction text with
  | nil => exact absurd fewer (Nat.lt_irrefl 0)
  | cons d text ih =>
      by_cases inside : part d = true
      · rw [List.takeWhile_cons_of_pos inside] at fewer ⊢
        exact ih (Nat.lt_of_succ_lt_succ fewer)
      · rw [List.takeWhile_cons_of_neg inside]
        exact ⟨d, rfl, Bool.eq_false_iff.mpr inside⟩

namespace Lexeme

variable {c : Char} {rest : List Char} {place : Place}

inductive Spelled (c : Char) (rest : List Char) (place : Place) (lexeme : Lexeme) : Prop
  | blank (nothing : lexeme.tokens place = []) (blank : isBlank c = true) (alone : lexeme.extra = 0)
  | token (token : Token) (only : lexeme.tokens place = [token]) (here : token.place = place)
      (written : token.spelling = c :: rest.take lexeme.extra)

theorem spelled_plain {kind : TokenKind} {more : List Char} (plain : kind ≠ .string)
    (starts : more <+: rest) : Spelled c rest place ⟨some (kind, c :: more), more.length⟩ := by
  refine .token _ rfl rfl ?_
  rw [Token.spelling, if_neg plain, String.toList_ofList, ← List.prefix_iff_eq_take.mp starts]

theorem spelled_pair {kind : TokenKind} {d : Char} (plain : kind ≠ .string)
    (follows : rest.head? = some d) : Spelled c rest place ⟨some (kind, [c, d]), 1⟩ :=
  spelled_plain plain ⟨rest.tail, List.cons_head?_tail follows⟩

theorem spelled_quoted : Spelled '"' rest place (quoted rest) := by
  have starts : rest.takeWhile (· ≠ '"') <+: rest := List.takeWhile_prefix _
  unfold quoted
  dsimp only
  split
  · next fewer =>
      refine .token _ rfl rfl ?_
      rcases takeWhile_stops (· ≠ '"') fewer with ⟨c, closing, quote⟩
      obtain rfl : c = '"' := by simpa using quote
      rw [Token.spelling, if_pos rfl, String.toList_ofList, List.take_add_one, closing,
        ← List.prefix_iff_eq_take.mp starts]
      rfl
  · exact spelled_plain (by decide) starts

theorem read_spelled (c : Char) (rest : List Char) (place : Place) :
    Spelled c rest place (read c rest) := by
  unfold read
  split
  · next blank => exact .blank rfl blank rfl
  split
  · exact spelled_plain (by decide) (List.takeWhile_prefix _)
  split
  · exact spelled_plain (ofWord_class _).2 (List.takeWhile_prefix _)
  split
  · next quote =>
      subst quote
      exact spelled_quoted
  split
  · next equal =>
      rcases equal with ⟨rfl, follows⟩
      exact spelled_pair (by decide) follows
  split
  · next unequal =>
      rcases unequal with ⟨rfl, follows⟩
      exact spelled_pair (by decide) follows
  · exact spelled_plain (ofChar?_class c _ rfl).2.2 List.nil_prefix

end Lexeme

namespace Token

/-- Scanning covers what is left of a text, behind the lexeme already taken, with tokens and blank space;
it ends with the place behind the text. -/
theorem scanFrom_tiles {skip : Nat} (before : List Char) {text : List Char} (fits : skip ≤ text.length) :
    ∃ tokens last spans, scanFrom skip (Place.start.after before) text = tokens ++ [last] ∧
      Tiles (before ++ text) (before.length + skip) tokens spans ∧
      last.literal = "" ∧ last.place.Marks (before ++ text) (before ++ text).length := by
  induction text generalizing before skip with
  | nil =>
      obtain rfl : skip = 0 := Nat.le_zero.mp fits
      have marks := Place.marks_after before []
      rw [List.append_nil] at marks ⊢
      exact ⟨[], _, [], rfl, .done, rfl, marks⟩
  | cons c rest ih =>
      have moved : (Place.start.after before).step c = Place.start.after (before ++ [c]) :=
        (Place.after_concat _ before c).symm
      have whole : before ++ [c] ++ rest = before ++ c :: rest := by simp
      have behind (skip : Nat) : (before ++ [c]).length + skip = before.length + (skip + 1) := by
        rw [List.length_append, List.length_singleton]
        omega
      cases skip with
      | succ skip =>
          rw [scanFrom, moved, ← behind, ← whole]
          exact ih (before ++ [c]) (Nat.le_of_succ_le_succ fits)
      | zero =>
          rcases ih (before ++ [c]) (Lexeme.read_fits c rest) with
            ⟨tokens, last, spans, scan, tiles, ends⟩
          rw [whole, behind] at tiles
          rw [whole] at ends
          rw [scanFrom, moved, scan]
          cases Lexeme.read_spelled c rest (Place.start.after before) with
          | blank nothing blank alone =>
              rw [alone] at tiles
              refine ⟨tokens, last, spans, ?_, .blank ?_ blank tiles, ends⟩
              · rw [nothing]
                rfl
              · simp
          | token token only here written =>
              let span : Span := ⟨before.length, before.length + ((Lexeme.read c rest).extra + 1)⟩
              have fits := Lexeme.read_fits c rest
              have fills : token.Fills (before ++ c :: rest) span := by
                constructor
                · show before.length < before.length + ((Lexeme.read c rest).extra + 1)
                  omega
                · rw [List.length_append, List.length_cons]
                  show before.length + ((Lexeme.read c rest).extra + 1) ≤ _
                  omega
                · rw [written, Span.cut, List.drop_left, Nat.add_sub_cancel_left, List.take_succ_cons]
                · rw [here]
                  exact Place.marks_after before (c :: rest)
              refine ⟨token :: tokens, last, span :: spans, ?_, .token fills tiles, ends⟩
              rw [only]
              rfl

/-- The tokens of a text end in one token that marks its end, at the place behind the text. Each of the
others stands for a span in which it is written out, at the place where the span starts; the spans do not
overlap and stand in the order of the tokens, and outside of them there is only blank space. -/
theorem scan_loses_nothing (source : String) :
    ∃ tokens last spans, scan source = tokens ++ [last] ∧
      last.kind = .eof ∧ last.literal = "" ∧ (∀ token ∈ tokens, token.kind ≠ .eof) ∧
      last.place.Marks source.toList source.toList.length ∧
      List.Forall₂ (Fills source.toList) tokens spans ∧
      (spans.Pairwise fun earlier later => earlier.stop ≤ later.start) ∧
      ∀ index c, source.toList[index]? = some c → (∀ span ∈ spans, ¬ span.Holds index) →
        c = ' ' ∨ c = '\t' ∨ c = '\r' ∨ c = '\n' := by
  rcases scanFrom_tiles [] (Nat.zero_le source.toList.length) with
    ⟨tokens, last, spans, scanned, tiles, literal, marks⟩
  rcases scanFrom_ends 0 .start source.toList with ⟨others, final, again, ends, inside⟩
  obtain ⟨rfl, same⟩ := List.append_inj' (scanned.symm.trans again) rfl
  cases List.singleton_inj.mp same
  refine ⟨tokens, last, spans, scanned, ends, literal, inside, marks, tiles.fills, tiles.ordered, ?_⟩
  intro index c there free
  have blank := tiles.outside there (Nat.zero_le index) free
  simpa [isBlank, or_assoc] using blank

end Token

end Marmoset
