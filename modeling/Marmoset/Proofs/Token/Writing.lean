import Marmoset.Proofs.Token.Spans

/-!
Scanning undoes writing. Keywords, operators, words, numbers, quoted texts and stray characters that are
written one after another, with blank space between them, are scanned to what was written; and whatever a
text was scanned to is scanned again when it is written out.
-/

namespace Marmoset

/-- What a token says, whatever its place. -/
structure Term where
  kind : TokenKind
  literal : String
  deriving DecidableEq, Repr

def Token.term (token : Token) : Term := ⟨token.kind, token.literal⟩

namespace Term

def ending : Term := ⟨.eof, ""⟩

def toToken (term : Term) (place : Place) : Token :=
  ⟨term.kind, term.literal, place.line, place.column⟩

def spelling (term : Term) : List Char := (term.toToken .start).spelling

theorem spelling_plain {term : Term} (plain : term.kind ≠ .string) :
    term.spelling = term.literal.toList :=
  if_neg plain

def keywords : List Term :=
  [⟨.fnWord, "fn"⟩, ⟨.letWord, "let"⟩, ⟨.trueWord, "true"⟩, ⟨.falseWord, "false"⟩, ⟨.ifWord, "if"⟩,
    ⟨.elseWord, "else"⟩, ⟨.returnWord, "return"⟩]

def marks : List (Char × TokenKind) :=
  [('=', .assign), ('+', .plus), ('-', .minus), ('!', .bang), ('*', .asterisk), ('/', .slash),
    ('<', .lt), ('>', .gt), (',', .comma), (';', .semicolon), (':', .colon), ('(', .lparen),
    (')', .rparen), ('{', .lbrace), ('}', .rbrace), ('[', .lbracket), (']', .rbracket)]

/-- Neither blank space nor anything else that can be written starts with the character. -/
structure Stray (c : Char) : Prop where
  blank : isBlank c = false
  digit : isDigit c = false
  word : isWordStart c = false
  quote : c ≠ '"'
  mark : ∀ mark ∈ marks, mark.1 ≠ c

def isWord (text : String) : Bool :=
  match text.toList with
  | [] => false
  | c :: more => isWordStart c && more.all isWordPart

inductive Writable : Term → Prop
  | keyword {term : Term} (member : term ∈ keywords) : Writable term
  | mark {c : Char} {kind : TokenKind} (member : (c, kind) ∈ marks) : Writable ⟨kind, String.ofList [c]⟩
  | equal : Writable ⟨.eq, "=="⟩
  | unequal : Writable ⟨.notEq, "!="⟩
  | word {literal : String} (word : isWord literal = true)
      (free : ∀ keyword ∈ keywords, keyword.literal ≠ literal) : Writable ⟨.ident, literal⟩
  | number {literal : String} (filled : literal ≠ "")
      (digits : ∀ c ∈ literal.toList, isDigit c = true) : Writable ⟨.int, literal⟩
  | quoted {literal : String} (plain : '"' ∉ literal.toList) : Writable ⟨.string, literal⟩
  | stray {c : Char} (stray : Stray c) : Writable ⟨.illegal, String.ofList [c]⟩

/-- What a text may be scanned to: it can be written, but for a last quoted text that has no end. -/
inductive Legible : List Term → Prop
  | none : Legible []
  | unclosed {body : List Char} (plain : '"' ∉ body) :
      Legible [⟨.illegal, String.ofList ('"' :: body)⟩]
  | next {term : Term} {terms : List Term} (writable : term.Writable) (rest : Legible terms) :
      Legible (term :: terms)

/-- Terms one after another with separators between them; where there are too few separators, a space
stands for each that is missing. -/
def write : List Term → List (List Char) → List Char
  | [], _ => []
  | [term], _ => term.spelling
  | term :: next :: terms, separators =>
    term.spelling ++ (separators.headD [' '] ++ write (next :: terms) separators.tail)

end Term

/-- Space that divides what stands on either side of it. -/
def Separates (separator : List Char) : Prop := separator ≠ [] ∧ ∀ c ∈ separator, isBlank c = true

def Divided (rest : List Char) : Prop := ∀ c ∈ rest.head?, isBlank c = true

theorem isWordPart_of_blank {c : Char} (blank : isBlank c = true) : isWordPart c = false := by
  rw [isBlank_iff] at blank
  rw [isWordPart, Bool.or_eq_false_iff, Bool.eq_false_iff, Bool.eq_false_iff, Ne, Ne, isWordStart_iff,
    isDigit_iff]
  omega

namespace Divided

variable {rest : List Char}

theorem nil : Divided [] := fun _ member => nomatch member

theorem bounded (divided : Divided rest) : Bounded rest :=
  fun c member => isWordPart_of_blank (divided c member)

theorem plain (divided : Divided rest) : rest.head? ≠ some '=' :=
  fun same => nomatch divided '=' same

theorem of_separates {separator : List Char} (separates : Separates separator) :
    Divided (separator ++ rest) := by
  rcases separates with ⟨filled, blank⟩
  cases separator with
  | nil => exact absurd rfl filled
  | cons c separator =>
      intro other member
      cases member
      exact blank c List.mem_cons_self

end Divided

namespace Token

theorem passes_blank (separator rest : List Char) (place : Place)
    (blank : ∀ c ∈ separator, isBlank c = true) : Passes separator rest place [] := by
  induction separator generalizing place with
  | nil => exact .nil rest place
  | cons c separator ih =>
      rw [List.forall_mem_cons] at blank
      have read : Lexeme.read c (separator ++ rest) = ⟨none, 0⟩ := by rw [Lexeme.read, if_pos blank.1]
      exact (passes_lexeme c [] (separator ++ rest) place none read).append (ih _ blank.2)

theorem passes_unclosed (body : List Char) (place : Place) (plain : '"' ∉ body) :
    Passes ('"' :: body) [] place
      [⟨.illegal, String.ofList ('"' :: body), place.line, place.column⟩] := by
  have whole : body.takeWhile (· ≠ '"') = body := by
    rw [List.takeWhile_eq_self_iff]
    intro c member
    exact decide_eq_true fun same => plain (same ▸ member)
  have read : Lexeme.read '"' (body ++ []) = ⟨some (.illegal, '"' :: body), body.length⟩ := by
    change Lexeme.quoted (body ++ []) = _
    rw [List.append_nil, Lexeme.quoted, whole, if_neg (Nat.lt_irrefl _)]
  exact passes_lexeme '"' body [] place (some (.illegal, '"' :: body)) read

end Token

namespace Term

theorem mem_marks {c : Char} {kind : TokenKind} :
    (c, kind) ∈ marks ↔ TokenKind.ofChar? c = some kind := by
  constructor
  · have known : ∀ mark ∈ marks, TokenKind.ofChar? mark.1 = some mark.2 := by decide
    exact known (c, kind)
  · intro mark
    unfold TokenKind.ofChar? at mark
    split at mark <;> cases mark <;> decide

theorem Stray.unmarked {c : Char} (stray : Stray c) : TokenKind.ofChar? c = none := by
  rw [Option.eq_none_iff_forall_not_mem]
  exact fun kind mark => stray.mark (c, kind) (mem_marks.mpr mark) rfl

open Token

theorem stray_passes {c : Char} (stray : Stray c) (rest : List Char) (place : Place) :
    Passes [c] rest place [⟨.illegal, String.ofList [c], place.line, place.column⟩] := by
  have equal : c ≠ '=' := fun same => nomatch same ▸ stray.unmarked
  have bang : c ≠ '!' := fun same => nomatch same ▸ stray.unmarked
  refine passes_lexeme c [] rest place (some (.illegal, [c])) ?_
  simp only [Lexeme.read, stray.blank, stray.digit, stray.word, stray.quote, equal, bang,
    stray.unmarked, false_and, if_false, Bool.false_eq_true, Option.getD_none, List.length_nil]

theorem word_passes {text : String} (word : isWord text = true) {rest : List Char}
    (bounded : Bounded rest) (place : Place) : Passes text.toList rest place
      [⟨.ofWord text, text, place.line, place.column⟩] := by
  unfold isWord at word
  split at word
  · cases word
  · next c more shape =>
      rw [Bool.and_eq_true] at word
      have passes := passes_word c more rest place word.1 word.2 bounded
      rw [← shape, String.ofList_toList] at passes
      exact passes

theorem number_passes {text : String} (filled : text ≠ "")
    (digits : ∀ c ∈ text.toList, isDigit c = true) {rest : List Char} (bounded : Bounded rest)
    (place : Place) : Passes text.toList rest place [⟨.int, text, place.line, place.column⟩] := by
  cases shape : text.toList with
  | nil => exact absurd (String.toList_eq_nil_iff.mp shape) filled
  | cons c more =>
      rw [shape, List.forall_mem_cons] at digits
      have passes := passes_number c more rest place digits.1 (List.all_eq_true.mpr digits.2) bounded
      rw [← shape, String.ofList_toList] at passes
      rw [← shape]
      exact passes

theorem of_keyword {term : Term} (member : term ∈ keywords) :
    isWord term.literal = true ∧ TokenKind.ofWord term.literal = term.kind ∧ term.kind ≠ .string := by
  revert term
  decide

theorem ofWord_cases (text : String) : ⟨.ofWord text, text⟩ ∈ keywords ∨
    (TokenKind.ofWord text = .ident ∧ ∀ keyword ∈ keywords, keyword.literal ≠ text) := by
  unfold TokenKind.ofWord
  split
  case h_8 fn let_ true_ false_ if_ else_ return_ =>
      refine .inr ⟨rfl, ?_⟩
      simp only [keywords, List.forall_mem_cons, List.not_mem_nil, false_implies, implies_true, and_true]
      exact ⟨Ne.symm fn, Ne.symm let_, Ne.symm true_, Ne.symm false_, Ne.symm if_, Ne.symm else_,
        Ne.symm return_⟩
  all_goals exact .inl (by decide)

/-- What is written before blank space, or at the end of a text, is scanned to what it says. -/
theorem Writable.passes {term : Term} (writable : term.Writable) {rest : List Char}
    (divided : Divided rest) (place : Place) : Passes term.spelling rest place [term.toToken place] := by
  cases writable with
  | keyword member =>
      rcases of_keyword member with ⟨word, kind, plain⟩
      have passes := word_passes word divided.bounded place
      rw [kind] at passes
      rw [spelling_plain plain]
      exact passes
  | @mark c kind member =>
      have mark := mem_marks.mp member
      rw [spelling_plain (ofChar?_class c kind (by rw [mark]; rfl)).2.2, String.toList_ofList]
      exact passes_mark c kind rest place mark fun _ => divided.plain
  | equal => exact passes_equal rest place
  | unequal => exact passes_unequal rest place
  | word word free =>
      have passes := word_passes word divided.bounded place
      rcases ofWord_cases _ with known | ⟨kind, -⟩
      · exact absurd rfl (free _ known)
      · rw [kind] at passes
        exact passes
  | number filled digits => exact number_passes filled digits divided.bounded place
  | @quoted literal plain =>
      have passes := passes_quoted literal.toList rest place plain
      rw [String.ofList_toList] at passes
      exact passes
  | @stray c stray =>
      rw [spelling_plain (by simp), String.toList_ofList]
      exact stray_passes stray rest place

/-- A text of terms is scanned to the terms, from any place. -/
theorem Legible.scanned {terms : List Term} (legible : Legible terms) {separators : List (List Char)}
    (separate : ∀ separator ∈ separators, Separates separator) (place : Place) :
    (scanFrom 0 place (write terms separators)).map Token.term = terms ++ [ending] := by
  induction legible generalizing separators place with
  | none => rfl
  | @unclosed body plain =>
      have spelled : write [⟨.illegal, String.ofList ('"' :: body)⟩] separators = '"' :: body := by
        rw [write, spelling_plain (by simp), String.toList_ofList]
      have passes : scanFrom 0 place ('"' :: body ++ []) = _ := passes_unclosed body place plain
      rw [List.append_nil] at passes
      rw [spelled, passes]
      rfl
  | @next term terms writable rest ih =>
      cases terms with
      | nil =>
          have passes : scanFrom 0 place (term.spelling ++ []) = _ :=
            writable.passes .nil place
          rw [List.append_nil] at passes
          rw [write, passes]
          rfl
      | cons next terms =>
          have apart : Separates (separators.headD [' ']) := by
            cases separators with
            | nil => exact ⟨by simp, by simp [isBlank]⟩
            | cons separator separators => exact separate separator List.mem_cons_self
          have others := ih fun separator member => separate separator (List.mem_of_mem_tail member)
          rw [write]
          generalize write (next :: terms) separators.tail = text at others ⊢
          generalize separators.headD [' '] = separator at apart ⊢
          have divided : Divided (separator ++ text) := .of_separates apart
          have first : scanFrom 0 place (term.spelling ++ (separator ++ text)) = _ :=
            writable.passes divided place
          have between : scanFrom 0 (place.after term.spelling) (separator ++ text) = _ :=
            passes_blank separator text _ apart.2
          rw [first, between, List.map_append, List.map_append, others]
          rfl

end Term

namespace Lexeme

open Term

theorem ofWord_writable {text : String} (word : isWord text = true) :
    (⟨.ofWord text, text⟩ : Term).Writable := by
  rcases ofWord_cases text with known | ⟨kind, free⟩
  · exact .keyword known
  · rw [kind]
    exact .word word free

inductive Said (rest : List Char) : Lexeme → Prop
  | nothing (extra : Nat) : Said rest ⟨none, extra⟩
  | term {kind : TokenKind} {literal : List Char} (extra : Nat)
      (writable : (⟨kind, String.ofList literal⟩ : Term).Writable) :
      Said rest ⟨some (kind, literal), extra⟩
  | unclosed (plain : '"' ∉ rest) : Said rest ⟨some (.illegal, '"' :: rest), rest.length⟩

theorem quoted_said (rest : List Char) : Said rest (quoted rest) := by
  unfold quoted
  dsimp only
  split
  · refine .term _ (.quoted fun inside => ?_)
    rw [String.toList_ofList] at inside
    simpa using List.mem_takeWhile_imp inside
  · next whole =>
      rcases unquoted_of_whole whole with ⟨all, plain⟩
      rw [all]
      exact .unclosed plain

theorem read_said (c : Char) (rest : List Char) : Said rest (read c rest) := by
  unfold read
  split
  · exact .nothing 0
  next blank =>
  split
  · next digit =>
      refine .term _ (.number ?_ ?_)
      · simp
      · rw [String.toList_ofList]
        exact List.forall_mem_cons.mpr ⟨digit, fun d inside => List.mem_takeWhile_imp inside⟩
  next digit =>
  split
  · next start =>
      refine .term _ (ofWord_writable ?_)
      have parts : (rest.takeWhile isWordPart).all isWordPart = true :=
        List.all_eq_true.mpr fun d inside => List.mem_takeWhile_imp inside
      simp only [isWord, String.toList_ofList, start, parts, Bool.and_self]
  next start =>
  split
  · exact quoted_said rest
  next quote =>
  split
  · exact .term _ .equal
  split
  · exact .term _ .unequal
  · cases mark : TokenKind.ofChar? c with
    | some kind => exact .term _ (.mark (mem_marks.mpr mark))
    | none =>
        refine .term _ (.stray ?_)
        refine ⟨Bool.eq_false_iff.mpr blank, Bool.eq_false_iff.mpr digit, Bool.eq_false_iff.mpr start,
          quote, ?_⟩
        rintro ⟨_, kind⟩ member rfl
        rw [mem_marks, mark] at member
        cases member

end Lexeme

namespace Token

theorem scanFrom_legible (skip : Nat) (place : Place) (text : List Char) :
    ∃ terms, (scanFrom skip place text).map term = terms ++ [.ending] ∧ Term.Legible terms := by
  induction text generalizing skip place with
  | nil =>
      refine ⟨[], ?_, .none⟩
      cases skip <;> rfl
  | cons c rest ih =>
      cases skip with
      | succ skip => exact ih skip (place.step c)
      | zero =>
          rcases ih (Lexeme.read c rest).extra (place.step c) with ⟨terms, scanned, legible⟩
          have said := Lexeme.read_said c rest
          rw [scanFrom, List.map_append]
          generalize Lexeme.read c rest = lexeme at said scanned ⊢
          cases said with
          | nothing extra => exact ⟨terms, scanned, legible⟩
          | term extra writable => exact ⟨_ :: terms, congrArg _ scanned, .next writable legible⟩
          | unclosed plain =>
              refine ⟨[_], ?_, .unclosed plain⟩
              rw [scanFrom_skip, List.drop_length]
              rfl

/-- Terms that can be written are scanned as they are, whatever blank space divides them; and scanning a
text gives terms that are scanned again when they are written with single spaces between them. Of these
only the last one may be a quoted text that has no end, and all the others can be written. -/
theorem scan_inverts_writing :
    (∀ (terms : List Term) (separators : List (List Char)), (∀ term ∈ terms, term.Writable) →
      (∀ separator ∈ separators, Separates separator) →
      (scan (String.ofList (Term.write terms separators))).map term = terms ++ [.ending]) ∧
    ∀ source, ∃ terms, (scan source).map term = terms ++ [.ending] ∧ Term.Legible terms ∧
      (scan (String.ofList (Term.write terms []))).map term = (scan source).map term := by
  constructor
  · intro terms separators writable separate
    have legible : Term.Legible terms := by
      induction terms with
      | nil => exact .none
      | cons term terms ih =>
          rw [List.forall_mem_cons] at writable
          exact .next writable.1 (ih writable.2)
    rw [scan, String.toList_ofList]
    exact legible.scanned separate .start
  · intro source
    rcases scanFrom_legible 0 .start source.toList with ⟨terms, scanned, legible⟩
    refine ⟨terms, scanned, legible, ?_⟩
    rw [scan, String.toList_ofList, scan, scanned]
    exact legible.scanned (List.forall_mem_nil _) .start

/-- An equals sign before another one, a word that starts like a keyword, a quoted text with a line break
and a stray character, divided by a tab, a line break, and a space where no separator is given. -/
theorem close_terms_scanned :
    let terms : List Term := [⟨.assign, "="⟩, ⟨.assign, "="⟩, ⟨.ident, "lets"⟩, ⟨.string, "a = \n1"⟩,
      ⟨.illegal, "@"⟩]
    let separators := [['\t'], ['\n', ' ']]
    Term.write terms separators = "=\t=\n lets \"a = \n1\" @".toList ∧
      (∀ term ∈ terms, term.Writable) ∧ (∀ separator ∈ separators, Separates separator) ∧
      (scan (String.ofList (Term.write terms separators))).map term = terms ++ [.ending] := by
  intro terms separators
  have writable : ∀ term ∈ terms, term.Writable := by
    have stray : Term.Stray '@' := ⟨by decide, by decide, by decide, by decide, by decide⟩
    simp only [terms, List.forall_mem_cons, List.not_mem_nil, false_implies, implies_true, and_true]
    exact ⟨.mark (by decide), .mark (by decide), .word (by decide) (by decide), .quoted (by decide),
      .stray stray⟩
  have separate : ∀ separator ∈ separators, Separates separator := by
    simp [separators, Separates, isBlank]
  exact ⟨by decide, writable, separate, scan_inverts_writing.1 terms separators writable separate⟩

end Token

end Marmoset
