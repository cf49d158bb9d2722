import Marmoset.Proofs.Grammar.Abreast
import Marmoset.Proofs.Grammar.Rounds

/-!
A reading that falls short: its stream ends where that of a second reading, which reports nothing, goes
on. As long as the two streams agree the first reading keeps beside the second one. Once it has run out
of tokens it misses a certain token, and reports that, or it misses an operand; and a missing operand is
all that it reports only where no block is open.
-/

namespace Marmoset

/-- A token of the longer stream in the place of one of the shorter stream: the same, or, when the shorter
stream ends inside a quoted text, what the longer one makes of that text. -/
def Token.Stands (quoted : Prop) (token other : Token) : Prop :=
  other = token ∨
    (quoted ∧ token.kind = .illegal ∧ (other.kind = .string ∨ other.kind = .illegal))

inductive Shared (quoted : Prop) : List Token → List Token → Prop
  | last {token other : Token} {rest behind : List Token} (same : token.Stands quoted other)
      (ended : ∀ token ∈ rest, token.kind = .eof) : Shared quoted (token :: rest) (other :: behind)
  | more (token : Token) {rest behind : List Token} (others : Shared quoted rest behind) :
      Shared quoted (token :: rest) (token :: behind)

def TokenKind.Sure (kind : TokenKind) : Prop := kind ≠ .eof ∧ kind ≠ .string ∧ kind ≠ .illegal

instance (kind : TokenKind) : Decidable kind.Sure := inferInstanceAs (Decidable (_ ∧ _))

variable {quoted : Prop} {α β : Type}

namespace Token.Stands

variable {token other : Token}

theorem refl (token : Token) : token.Stands quoted token := .inl rfl

theorem kind_iff_of_ne (same : token.Stands quoted other) {kind : TokenKind} (apart : kind ≠ .string)
    (legal : kind ≠ .illegal) : token.kind = kind ↔ other.kind = kind := by
  rcases same with rfl | ⟨-, illegal, text | text⟩
  · exact Iff.rfl
  · rw [illegal, text]
    exact iff_of_false legal.symm apart.symm
  · rw [illegal, text]

theorem kind_iff (same : token.Stands quoted other) {kind : TokenKind} (sure : kind.Sure) :
    token.kind = kind ↔ other.kind = kind :=
  same.kind_iff_of_ne sure.2.1 sure.2.2

theorem eof_iff (same : token.Stands quoted other) : token.kind = .eof ↔ other.kind = .eof :=
  same.kind_iff_of_ne (by decide) (by decide)

theorem power (same : token.Stands quoted other) : other.kind.power = token.kind.power := by
  rcases same with rfl | ⟨-, illegal, text | text⟩
  · rfl
  · rw [illegal, text]
    rfl
  · rw [illegal, text]

end Token.Stands

namespace Cursor

def Past (cursor : Cursor) : Prop := cursor.advance.Over

def Marked (cursor : Cursor) : Prop :=
  ∃ wanted line, ⟨.expected wanted .eof, line⟩ ∈ cursor.diagnostics

/-- Nothing is reported but that an operand was due at the end. -/
def Wanting (quoted : Prop) (cursor : Cursor) : Prop :=
  ∃ kind line, cursor.diagnostics = [⟨.noOperand kind, line⟩] ∧
    (kind = .eof ∨ (kind = .illegal ∧ quoted))

/-- The stream has ended, and that has not been reported yet or a certain token was due. -/
structure Short (cursor : Cursor) : Prop where
  past : cursor.Past
  told : cursor.diagnostics = [] ∨ cursor.Marked

/-- The first cursor has reported nothing, and its stream is the beginning of the other one. -/
structure Follows (quoted : Prop) (left right : Cursor) : Prop where
  streams : Shared quoted left.tokens right.tokens
  quiet : left.diagnostics = []

variable {cursor left right : Cursor}

theorem Over.past (spent : cursor.Over) : cursor.Past := spent.leads Leads.refl.advance

theorem Past.peek (past : cursor.Past) : cursor.peek.kind = .eof := past.ended

theorem Past.resume (past : cursor.Past) : cursor.resume.advance.Over := by
  intro token member
  rcases cursor.resume_leads.suffix with ⟨front, shape⟩
  refine past token ?_
  rw [advance_tokens] at member ⊢
  cases front with
  | nil => rwa [← shape]
  | cons skipped front =>
      rw [← shape]
      exact List.mem_append_right front (List.mem_of_mem_tail member)

theorem report_ne_nil (cursor : Cursor) (problem : Problem) (line : Int) :
    (cursor.report problem line).diagnostics ≠ [] :=
  List.append_ne_nil_of_right_ne_nil _ (List.cons_ne_nil _ _)

theorem Marked.report (marked : cursor.Marked) (problem : Problem) (line : Int) :
    (cursor.report problem line).Marked := by
  rcases marked with ⟨wanted, own, member⟩
  exact ⟨wanted, own, List.mem_append_left _ member⟩

theorem marked_of_expected (cursor : Cursor) (kind : TokenKind) (line : Int) :
    (cursor.report (.expected kind .eof) line).Marked :=
  ⟨kind, line, List.mem_append_right _ List.mem_cons_self⟩

theorem Short.advance (short : cursor.Short) : cursor.advance.Over ∧ cursor.advance.Short :=
  ⟨short.past, short.past.past, short.told⟩

theorem Follows.current (follows : left.Follows quoted right) : right.current = left.current ∨
    (left.current.Stands quoted right.current ∧ left.Past) := by
  rcases left with ⟨tokens, endLine, depth, diagnostics⟩
  rcases right with ⟨tokens', endLine', depth', diagnostics'⟩
  cases follows.streams with
  | last same ended => exact .inr ⟨same, ended⟩
  | more token others => exact .inl rfl

theorem Follows.stands (follows : left.Follows quoted right) :
    left.current.Stands quoted right.current := by
  rcases follows.current with same | ⟨stands, -⟩
  · exact .inl same
  · exact stands

theorem Follows.advance (follows : left.Follows quoted right) :
    left.Short ∨ left.advance.Follows quoted right.advance := by
  rcases left with ⟨tokens, endLine, depth, diagnostics⟩
  rcases right with ⟨tokens', endLine', depth', diagnostics'⟩
  cases follows.streams with
  | last same ended => exact .inl ⟨ended, .inl follows.quiet⟩
  | more token others => exact .inr ⟨others, follows.quiet⟩

end Cursor

namespace Outcome

/-- The outcome of a reading whose stream has ended inside the phrase. A failure that wants no more than
an operand is not on a closing brace, so no block takes it for its own end. -/
def Short (quoted : Prop) : Outcome α → Prop
  | .read _ cursor => cursor.Short
  | .failed cursor => cursor.Past ∧
      (cursor.Marked ∨ (cursor.Wanting quoted ∧ cursor.current.kind ≠ .rbrace))
  | .tooDeep _ => True
  | .abandoned _ => False

def Clean : Outcome α → Prop
  | .read _ cursor => cursor.diagnostics = []
  | _ => False

def Honest (start : Cursor) : Outcome α → Prop
  | .read _ cursor => cursor.diagnostics = [] → start.diagnostics = []
  | .failed cursor => cursor.diagnostics ≠ []
  | _ => True

/-- The first outcome keeps beside the second one, or it falls short. -/
inductive Trails (quoted : Prop) : Outcome α → Outcome α → Prop
  | beside {value other : α} {left right : Cursor} (follows : left.Follows quoted right) :
      Trails quoted (.read value left) (.read other right)
  | short {first second : Outcome α} (short : first.Short quoted) : Trails quoted first second

theorem Clean.start {outcome : Outcome α} {start : Cursor} (clean : outcome.Clean)
    (honest : outcome.Honest start) : start.diagnostics = [] := by
  cases outcome with
  | read value cursor => exact honest clean
  | failed cursor => exact clean.elim
  | tooDeep cursor => exact clean.elim
  | abandoned error => exact clean.elim

theorem Clean.of_map {outcome : Outcome α} {make : α → β}
    (clean : (outcome.bind fun value => (pure (make value) : Production β)).Clean) :
    outcome.Clean := by
  cases outcome with
  | read value cursor => exact clean
  | failed cursor => exact clean.elim
  | tooDeep cursor => exact clean.elim
  | abandoned error => exact clean.elim

theorem Honest.unclean {outcome : Outcome α} {start : Cursor} (honest : outcome.Honest start)
    (reported : start.diagnostics ≠ []) : ¬ outcome.Clean :=
  fun clean => reported (clean.start honest)

theorem Short.bind {outcome : Outcome α} {next : α → Production β} (short : outcome.Short quoted)
    (continued : ∀ value cursor, cursor.Short → (next value cursor).Short quoted) :
    (outcome.bind next).Short quoted := by
  cases outcome with
  | read value cursor => exact continued value cursor short
  | failed cursor => exact short
  | tooDeep cursor => trivial
  | abandoned error => exact short.elim

theorem Honest.after {outcome : Outcome α} {start middle : Cursor} (honest : outcome.Honest middle)
    (kept : middle.diagnostics = [] → start.diagnostics = []) : outcome.Honest start := by
  cases outcome with
  | read value cursor => exact fun clean => kept (honest clean)
  | failed cursor => exact honest
  | tooDeep cursor => trivial
  | abandoned error => trivial

theorem Honest.bind {outcome : Outcome α} {start : Cursor} {next : α → Production β}
    (honest : outcome.Honest start)
    (continued : ∀ value cursor, (next value cursor).Honest cursor) :
    (outcome.bind next).Honest start := by
  cases outcome with
  | read value cursor => exact (continued value cursor).after honest
  | failed cursor => exact honest
  | tooDeep cursor => trivial
  | abandoned error => trivial

theorem Short.map {outcome : Outcome α} (short : outcome.Short quoted) (make : α → β) :
    (outcome.bind fun value => (pure (make value) : Production β)).Short quoted :=
  short.bind fun _ _ short => short

theorem Honest.map {outcome : Outcome α} {start : Cursor} (honest : outcome.Honest start)
    (make : α → β) : (outcome.bind fun value => (pure (make value) : Production β)).Honest start :=
  honest.bind fun _ _ clean => clean

theorem Yields.honest {outcome : Outcome α} {start : Cursor} {account : Account α}
    (yields : outcome.Yields start account) : outcome.Honest start := by
  cases outcome with
  | read value cursor =>
      intro clean
      exact List.prefix_nil.mp (clean ▸ yields.1.diagnostics)
  | failed cursor => exact List.ne_nil_of_length_pos (Nat.zero_lt_of_lt yields.2)
  | tooDeep cursor => trivial
  | abandoned error => trivial

end Outcome

/-- The first production keeps beside the second one for as long as the streams agree and the second one
reports nothing. Where the stream of the first one has ended and `start` holds, it falls short. -/
structure Production.Trails (quoted : Prop) (start : Cursor → Prop) (first second : Production α) :
    Prop where
  beside : ∀ left right, left.Follows quoted right → (second right).Clean →
    (first left).Trails quoted (second right)
  short : ∀ cursor, start cursor → cursor.Short → (first cursor).Short quoted
  honest : ∀ cursor, (second cursor).Honest cursor

theorem Outcome.Trails.bind {first second : Outcome α} {next other : α → Production β}
    (trails : second.Clean → first.Trails quoted second)
    (continued : ∀ value value', (next value).Trails quoted (fun _ => True) (other value'))
    (clean : (second.bind other).Clean) : (first.bind next).Trails quoted (second.bind other) := by
  cases second with
  | failed right => exact clean.elim
  | tooDeep right => exact clean.elim
  | abandoned error => exact clean.elim
  | read value' right =>
      -- what stands behind is clean, so the report was empty before it
      have quiet : right.diagnostics = [] := clean.start ((continued value' value').honest right)
      cases trails quiet with
      | @beside value _ left _ follows => exact (continued value value').beside left right follows clean
      | short short =>
          exact .short (short.bind fun value cursor => (continued value value).short cursor trivial)

namespace Production

variable {start : Cursor → Prop} {first second : Production α}

theorem Trails.anyhow (trails : first.Trails quoted (fun _ => True) second) :
    first.Trails quoted start second :=
  ⟨trails.beside, fun cursor _ => trails.short cursor trivial, trails.honest⟩

theorem Trails.bind {next other : α → Production β} (trails : first.Trails quoted start second)
    (continued : ∀ value value', (next value).Trails quoted (fun _ => True) (other value')) :
    (first >>= next).Trails quoted start (second >>= other) where
  beside left right follows clean :=
    Outcome.Trails.bind (trails.beside left right follows) continued clean
  short cursor holds short :=
    (trails.short cursor holds short).bind fun value cursor =>
      (continued value value).short cursor trivial
  honest cursor :=
    (trails.honest cursor).bind fun value cursor => (continued value value).honest cursor

theorem pure_trails (value other : α) :
    (pure value : Production α).Trails quoted start (pure other) where
  beside _ _ follows _ := .beside follows
  short _ _ short := short
  honest _ := id

theorem exhaust_trails : (exhaust : Production α).Trails quoted start exhaust where
  beside _ _ _ clean := clean.elim
  short _ _ _ := trivial
  honest _ := trivial

theorem refuse_trails {problem : Problem} {line : Int}
    (fell : ∀ cursor, start cursor → cursor.Short →
      ((refuse problem line : Production α) cursor).Short quoted) :
    (refuse problem line : Production α).Trails quoted start (refuse problem line) where
  beside _ _ _ clean := clean.elim
  short := fell
  honest cursor := cursor.report_ne_nil problem line

theorem room_trails (needed frames : Nat) {next other : Production α}
    (continued : next.Trails quoted start other) :
    (room needed frames >>= fun _ => next).Trails quoted start (room needed frames >>= fun _ => other) := by
  rcases Nat.lt_or_ge frames needed with scarce | enough
  · have short (after : Production α) :
        (room needed frames >>= fun _ => after) = (exhaust : Production α) := by
      funext cursor
      rw [bind_apply, room_short scarce]
      rfl
    rw [short, short]
    exact exhaust_trails
  · have onward (after : Production α) : (room needed frames >>= fun _ => after) = after := by
      funext cursor
      rw [bind_apply, room_apply enough]
      rfl
    rw [onward, onward]
    exact continued

theorem above_trails (calls frames : Nat) {production production' : Nat → Production α}
    (trails : ∀ frames, (production frames).Trails quoted start (production' frames)) :
    (above calls frames production).Trails quoted start (above calls frames production') :=
  room_trails calls frames (trails _)

theorem fail_trails (frames : Nat) {problem : Problem} {line : Int}
    (fell : ∀ cursor, start cursor → cursor.Short →
      ((refuse problem line : Production α) cursor).Short quoted) :
    (fail frames problem line : Production α).Trails quoted start (fail frames problem line) :=
  room_trails 2 frames (refuse_trails fell)

theorem choice_trails {condition condition' : Prop} [Decidable condition] [Decidable condition']
    {chosen chosen' rejected rejected' : Production α} (alike : condition ↔ condition')
    (positive : condition → chosen.Trails quoted start chosen')
    (negative : ¬ condition → rejected.Trails quoted start rejected') :
    (if condition then chosen else rejected).Trails quoted start
      (if condition' then chosen' else rejected') := by
  by_cases holds : condition
  · rw [if_pos holds, if_pos (alike.mp holds)]
    exact positive holds
  · rw [if_neg holds, if_neg (mt alike.mpr holds)]
    exact negative holds

theorem current_trails {next other : Token → Production α}
    (continued : ∀ token token', token.Stands quoted token' →
      (next token).Trails quoted start (other token')) :
    (current >>= next).Trails quoted start (current >>= other) where
  beside left right follows clean :=
    (continued left.current right.current follows.stands).beside left right follows clean
  short cursor := (continued cursor.current cursor.current (.refl _)).short cursor
  honest cursor := (continued cursor.current cursor.current (.refl _)).honest cursor

/-- A phrase that its first token decides. Where that is a quoted text which the end cuts off, the first
reading has to fall short at once. -/
theorem token_trails {next other : Token → Production α}
    (same : ∀ token, (next token).Trails quoted (fun cursor => start cursor ∧ cursor.current = token)
      (other token))
    (cutOff : quoted → ∀ token, token.kind = .illegal → ∀ cursor : Cursor, cursor.current = token →
      cursor.Past → cursor.diagnostics = [] → (next token cursor).Short quoted) :
    (current >>= next).Trails quoted start (current >>= other) where
  beside left right follows clean := by
    change (other right.current right).Clean at clean
    change (next left.current left).Trails quoted (other right.current right)
    rcases follows.current with equal | ⟨equal | ⟨open_text, illegal, -⟩, past⟩
    · rw [equal] at clean ⊢
      exact (same left.current).beside left right follows clean
    · rw [equal] at clean ⊢
      exact (same left.current).beside left right follows clean
    · exact .short (cutOff open_text left.current illegal left rfl past follows.quiet)
  short cursor holds := (same cursor.current).short cursor ⟨holds, rfl⟩
  honest cursor := (same cursor.current).honest cursor

theorem advance_trails {next other : Production α}
    (continued : next.Trails quoted Cursor.Over other) :
    (advance >>= fun _ => next).Trails quoted start (advance >>= fun _ => other) where
  beside left right follows clean := by
    rcases follows.advance with short | further
    · exact .short (continued.short left.advance short.advance.1 short.advance.2)
    · exact continued.beside left.advance right.advance further clean
  short cursor _ short := continued.short cursor.advance short.advance.1 short.advance.2
  honest cursor := continued.honest cursor.advance

theorem peek_trails {next other : Token → Production α}
    (continued : ∀ token token', token.Stands quoted token' →
      (next token).Trails quoted (fun _ => True) (other token')) :
    (peek >>= next).Trails quoted start (peek >>= other) where
  beside left right follows clean := by
    rcases follows.advance with short | further
    · exact .short ((continued left.peek left.peek (.refl _)).short left trivial short)
    · exact (continued left.peek right.peek further.stands).beside left right follows clean
  short cursor _ := (continued cursor.peek cursor.peek (.refl _)).short cursor trivial
  honest cursor := (continued cursor.peek cursor.peek (.refl _)).honest cursor

theorem expect_trails (frames : Nat) (kind : TokenKind) (sure : kind.Sure) :
    (expect frames kind).Trails quoted start (expect frames kind) := by
  have fell (cursor : Cursor) (short : cursor.Short) : (expect frames kind cursor).Short quoted := by
    rcases expect_cases frames kind cursor with ⟨same, -⟩ | ⟨-, missed⟩ | ⟨-, short⟩
    · exact absurd (same.symm.trans short.past.peek) sure.1
    · rw [missed, short.past.peek]
      exact ⟨short.past, .inl (cursor.marked_of_expected kind _)⟩
    · exact short ▸ trivial
  refine ⟨?_, fun cursor _ => fell cursor, ?_⟩
  · intro left right follows clean
    rcases follows.advance with short | further
    · exact .short (fell left short)
    have alike : left.peek.kind = kind ↔ right.peek.kind = kind := further.stands.kind_iff sure
    rcases expect_cases frames kind right with ⟨there, found'⟩ | ⟨-, missed⟩ | ⟨-, short⟩
    · rw [found']
      rcases expect_cases frames kind left with ⟨-, found⟩ | ⟨other, -⟩ | ⟨-, short⟩
      · exact found ▸ .beside further
      · exact absurd (alike.mpr there) other
      · exact short ▸ .short trivial
    · exact (missed ▸ clean).elim
    · exact (short ▸ clean).elim
  · intro cursor
    rcases expect_cases frames kind cursor with ⟨-, found⟩ | ⟨-, missed⟩ | ⟨-, short⟩
    · exact found ▸ id
    · exact missed ▸ Cursor.report_ne_nil _ _ _
    · exact short ▸ trivial

theorem accept_trails (kind : TokenKind) (sure : kind.Sure) :
    (accept kind).Trails quoted start (accept kind) := by
  have passed (cursor : Cursor) (short : cursor.Short) : (accept kind cursor).Short quoted := by
    rw [accept, short.past.peek, if_neg sure.1.symm]
    exact short
  refine ⟨?_, fun cursor _ => passed cursor, ?_⟩
  · intro left right follows clean
    rcases follows.advance with short | further
    · exact .short (passed left short)
    · have alike : left.peek.kind = kind ↔ right.peek.kind = kind := further.stands.kind_iff sure
      rw [accept, accept]
      by_cases there : right.peek.kind = kind
      · rw [if_pos there, if_pos (alike.mpr there)]
        exact .beside further
      · rw [if_neg there, if_neg (mt alike.mp there)]
        exact .beside follows
  · intro cursor
    rw [accept]
    split
    · exact id
    · exact id

/-- A loop trails another one, whatever the bounds of the two are: where the first one meets its bound it
falls short, and where the second one does it is not clean. -/
theorem loop_trails {ι : Type} (loop loop' : Nat → ι → Production α)
    (none : ∀ index, loop 0 index = exhaust) (none' : ∀ index, loop' 0 index = exhaust)
    (step : ∀ fuel fuel',
      (∀ index index', (loop fuel index).Trails quoted start (loop' fuel' index')) →
      ∀ index index', (loop (fuel + 1) index).Trails quoted start (loop' (fuel' + 1) index'))
    (fuel fuel' : Nat) (index index' : ι) :
    (loop fuel index).Trails quoted start (loop' fuel' index') := by
  -- a single run with any bound falls short and is honest, which equal bounds tell
  have equal (fuel : Nat) (index index' : ι) :
      (loop fuel index).Trails quoted start (loop' fuel index') := by
    induction fuel generalizing index index' with
    | zero =>
        rw [none, none']
        exact exhaust_trails
    | succ fuel ih => exact step fuel fuel ih index index'
  induction fuel generalizing fuel' index index' with
  | zero =>
      refine ⟨fun left right _ _ => ?_, (equal 0 index index').short, (equal fuel' index index').honest⟩
      rw [none]
      exact .short trivial
  | succ fuel ih =>
      cases fuel' with
      | zero =>
          refine ⟨fun left right _ clean => ?_, (equal _ index index').short, (equal 0 index index').honest⟩
          rw [none'] at clean
          exact clean.elim
      | succ fuel' => exact step fuel fuel' (ih fuel') index index'

end Production

namespace Grammar

open Production

theorem moreParameters_trails (frames fuel fuel' : Nat) :
    (moreParameters frames fuel).Trails quoted (fun _ => True) (moreParameters frames fuel') := by
  refine loop_trails (fun fuel (_ : Unit) => moreParameters frames fuel)
    (fun fuel' _ => moreParameters frames fuel') (fun _ => rfl) (fun _ => rfl) ?_ fuel fuel' () ()
  intro fuel fuel' again _ _
  refine peek_trails fun token token' same => choice_trails (same.kind_iff (by decide)) ?_ ?_
  · intro _
    exact advance_trails ((expect_trails frames .ident (by decide)).bind fun _ _ => current_trails
      fun name name' _ => (again () ()).bind fun names names' => pure_trails _ _)
  · intro _
    exact (expect_trails frames .rparen (by decide)).bind fun _ _ => pure_trails _ _

theorem parameters_trails (bound bound' frames : Nat) :
    (parameters bound frames).Trails quoted (fun _ => True) (parameters bound' frames) := by
  apply room_trails
  refine peek_trails fun token token' same => choice_trails (same.kind_iff (by decide)) ?_ ?_
  · intro _
    exact advance_trails (pure_trails _ _)
  · intro _
    exact (expect_trails frames .ident (by decide)).bind fun _ _ => current_trails fun name name' _ =>
      (moreParameters_trails frames bound bound').bind fun names names' => pure_trails _ _

section Nested

variable {bound bound' frames : Nat} {nested nested' : Nat → Power → Production Node}

def Trailing (quoted : Prop) (nested nested' : Nat → Power → Production Node) : Prop :=
  ∀ frames power, (nested frames power).Trails quoted Cursor.Over (nested' frames power)

theorem inside_trails (trailing : Trailing quoted nested nested') {start : Cursor → Prop}
    (power : Power) {next other : Node → Production α}
    (continued : ∀ node node', (next node).Trails quoted (fun _ => True) (other node')) :
    (advance >>= fun _ => nested frames power >>= next).Trails quoted start
      (advance >>= fun _ => nested' frames power >>= other) :=
  advance_trails ((trailing frames power).bind continued)

theorem items_trails (trailing : Trailing quoted nested nested') (close : TokenKind)
    (sure : close.Sure) (fuel fuel' : Nat) :
    (items nested frames close fuel).Trails quoted Cursor.Over (items nested' frames close fuel') := by
  refine loop_trails (fun fuel (_ : Unit) => items nested frames close fuel)
    (fun fuel' _ => items nested' frames close fuel') (fun _ => rfl) (fun _ => rfl) ?_ fuel fuel' () ()
  intro fuel fuel' again _ _
  refine (trailing frames .lowest).bind fun item item' => peek_trails fun token token' same =>
    choice_trails (same.kind_iff (by decide)) ?_ ?_
  · intro _
    exact advance_trails (advance_trails ((again () ()).bind fun rest rest' => pure_trails _ _))
  · intro _
    exact (expect_trails frames close sure).bind fun _ _ => pure_trails _ _

theorem expressions_trail (trailing : Trailing quoted nested nested') (close : TokenKind)
    (sure : close.Sure) : (expressions bound nested frames close).Trails quoted (fun _ => True)
      (expressions bound' nested' frames close) := by
  apply room_trails
  refine peek_trails fun token token' same => choice_trails (same.kind_iff sure) ?_ ?_
  · intro _
    exact advance_trails (pure_trails _ _)
  · intro _
    exact advance_trails (items_trails trailing close sure bound bound')

theorem pairs_trail (trailing : Trailing quoted nested nested') (fuel fuel' : Nat) :
    (pairs nested frames fuel).Trails quoted (fun _ => True) (pairs nested' frames fuel') := by
  refine loop_trails (fun fuel (_ : Unit) => pairs nested frames fuel)
    (fun fuel' _ => pairs nested' frames fuel') (fun _ => rfl) (fun _ => rfl) ?_ fuel fuel' () ()
  intro fuel fuel' again _ _
  have rest (pair pair' : Node × Node) := (again () ()).bind fun rest rest' =>
    pure_trails (pair :: rest) (pair' :: rest')
  refine peek_trails fun token token' same => choice_trails (same.kind_iff (by decide)) ?_ ?_
  · intro _
    exact (expect_trails frames .rbrace (by decide)).bind fun _ _ => pure_trails _ _
  · intro _
    refine inside_trails trailing .lowest fun key key' => (expect_trails frames .colon (by decide)).bind
      fun _ _ => inside_trails trailing .lowest fun value value' => peek_trails
        fun next next' same => choice_trails (same.kind_iff (by decide)) ?_ ?_
    · exact fun _ => rest (key, value) (key', value')
    · exact fun _ => (expect_trails frames .comma (by decide)).bind fun _ _ => rest (key, value) (key', value')

theorem bareExpression_trails (trailing : Trailing quoted nested nested') :
    (bareExpression nested frames).Trails quoted Cursor.Over (bareExpression nested' frames) :=
  current_trails fun token token' _ => (trailing frames .lowest).bind fun value value' =>
    (accept_trails .semicolon (by decide)).bind fun _ _ => pure_trails _ _

theorem statement_trails (trailing : Trailing quoted nested nested') (frames : Nat) :
    (statement nested frames).Trails quoted Cursor.Over (statement nested' frames) := by
  refine above_trails 4 frames fun frames => ?_
  have bare : (bareExpression nested frames).Trails quoted Cursor.Over (bareExpression nested' frames) :=
    bareExpression_trails trailing
  refine current_trails fun token token' same => ?_
  rcases same with rfl | ⟨-, illegal, text | text⟩
  · split
    · exact current_trails fun word word' _ => (expect_trails frames .ident (by decide)).bind fun _ _ =>
        current_trails fun name name' _ => (expect_trails frames .assign (by decide)).bind fun _ _ =>
          inside_trails trailing .lowest fun value value' =>
            (accept_trails .semicolon (by decide)).bind fun _ _ => pure_trails _ _
    · exact room_trails 1 frames (current_trails fun word word' _ =>
        inside_trails trailing .lowest fun value value' =>
          (accept_trails .semicolon (by decide)).bind fun _ _ => pure_trails _ _)
    · exact bare
  · rw [illegal, text]
    exact bare
  · rw [illegal, text]
    exact bare

theorem blockStatements_short (depth : Int) (fuel : Nat) {cursor : Cursor} (spent : cursor.Over) :
    (blockStatements nested frames depth fuel cursor).Short quoted := by
  cases fuel with
  | zero => trivial
  | succ fuel =>
      rw [blockStatements_succ, spent.ended, if_neg (by decide), if_pos rfl]
      rcases fail_cases frames (.expected .rbrace .eof) cursor.current.line cursor with
        missed | ⟨-, short⟩
      · exact missed ▸ ⟨spent.past, .inl (cursor.marked_of_expected .rbrace _)⟩
      · exact short ▸ trivial

theorem blockStatements_after_short (depth : Int) (fuel : Nat) {cursor : Cursor}
    (unclosed : cursor.current.kind ≠ .rbrace) (inside : cursor.current.kind ≠ .eof)
    (short : (statement nested frames cursor).Short quoted) :
    (blockStatements nested frames depth (fuel + 1) cursor).Short quoted := by
  rw [blockStatements_succ, if_neg unclosed, if_neg inside]
  cases result : statement nested frames cursor with
  | tooDeep after => trivial
  | abandoned error =>
      rw [result] at short
      exact short.elim
  | read node after =>
      rw [result] at short
      exact (blockStatements_short depth fuel short.past).map (node :: ·)
  | failed after =>
      rw [result] at short
      rcases short with ⟨past, told⟩
      dsimp only
      split
      · next closed =>
          rcases told with marked | ⟨-, other⟩
          · exact ⟨past, .inr marked⟩
          · exact absurd closed.1 other
      · exact blockStatements_short depth fuel past.resume

theorem blockStatements_honest {depth : Int} {fuel : Nat}
    (first : ∀ cursor, (statement nested frames cursor).Honest cursor)
    (again : ∀ cursor, (blockStatements nested frames depth fuel cursor).Honest cursor) (cursor : Cursor) :
    (blockStatements nested frames depth (fuel + 1) cursor).Honest cursor := by
  rw [blockStatements_succ]
  split
  · exact id
  split
  · rcases fail_cases frames (.expected .rbrace .eof) cursor.current.line cursor with
      missed | ⟨-, short⟩
    · exact missed ▸ Cursor.report_ne_nil _ _ _
    · exact short ▸ trivial
  have honest := first cursor
  cases result : statement nested frames cursor with
  | tooDeep after => trivial
  | abandoned error => trivial
  | read node after =>
      rw [result] at honest
      exact ((again after.advance).map (node :: ·)).after honest
  | failed after =>
      rw [result] at honest
      dsimp only
      split
      · exact fun clean => absurd clean honest
      · exact (again _).after fun clean => absurd clean honest

theorem blockStatements_clean {depth : Int} {fuel : Nat} {cursor : Cursor}
    (first : (statement nested frames cursor).Honest cursor)
    (again : ∀ cursor, (blockStatements nested frames depth fuel cursor).Honest cursor)
    (clean : (blockStatements nested frames depth (fuel + 1) cursor).Clean) :
    cursor.current.kind = .rbrace ∨ (cursor.current.kind ≠ .rbrace ∧ cursor.current.kind ≠ .eof ∧
      ∃ node after, statement nested frames cursor = .read node after ∧ after.diagnostics = [] ∧
        ((blockStatements nested frames depth fuel after.advance).bind
          fun rest => pure (node :: rest)).Clean) := by
  rw [blockStatements_succ] at clean
  split at clean
  · next closed => exact .inl closed
  split at clean
  · rcases fail_cases frames (.expected .rbrace .eof) cursor.current.line cursor with
      missed | ⟨-, short⟩
    · exact (missed ▸ clean).elim
    · exact (short ▸ clean).elim
  next unclosed inside =>
  refine .inr ⟨unclosed, inside, ?_⟩
  cases result : statement nested frames cursor with
  | tooDeep after =>
      rw [result] at clean
      exact clean.elim
  | abandoned error =>
      rw [result] at clean
      exact clean.elim
  | read node after =>
      rw [result] at clean
      exact ⟨node, after, rfl, clean.start ((again after.advance).map (node :: ·)), clean⟩
  | failed after =>
      -- the report of the failure stays, whether the block ends on it or goes on behind it
      rw [result] at clean first
      dsimp only at clean
      split at clean
      · exact absurd clean first
      · exact absurd clean ((again _).unclean first)

theorem blockStatements_trail (trailing : Trailing quoted nested nested') (frames : Nat)
    (depth depth' : Int) (fuel fuel' : Nat) : (blockStatements nested frames depth fuel).Trails quoted Cursor.Over
      (blockStatements nested' frames depth' fuel') := by
  refine loop_trails (fun fuel depth => blockStatements nested frames depth fuel)
    (fun fuel' depth' => blockStatements nested' frames depth' fuel') (fun _ => rfl) (fun _ => rfl) ?_
    fuel fuel' depth depth'
  intro fuel fuel' again depth depth'
  have first := statement_trails trailing frames
  refine ⟨?_, fun cursor spent _ => blockStatements_short depth _ spent,
    blockStatements_honest first.honest (again depth depth').honest⟩
  intro left right follows clean
  have closing : left.current.kind = .rbrace ↔ right.current.kind = .rbrace :=
    follows.stands.kind_iff (by decide)
  rcases blockStatements_clean (first.honest right) (again depth depth').honest clean with
    closed | ⟨unclosed, inside, node', right', result, quiet, rest⟩
  · rw [blockStatements_succ, blockStatements_succ, if_pos closed, if_pos (closing.mpr closed)]
    exact .beside follows
  have leftInside : left.current.kind ≠ .eof := mt follows.stands.eof_iff.mp inside
  have trails := first.beside left right follows
  rw [result] at trails
  generalize outcome : statement nested frames left = one at trails
  cases trails quiet with
  | @beside node _ left' _ follows' =>
      rw [blockStatements_succ, blockStatements_succ, if_neg unclosed, if_neg inside,
        if_neg (mt closing.mp unclosed), if_neg leftInside, result, outcome]
      rcases follows'.advance with short | further
      · exact .short ((blockStatements_short depth fuel short.past).map (node :: ·))
      · exact ((again depth depth').bind fun nodes nodes' =>
          pure_trails (node :: nodes) (node' :: nodes')).beside _ _ further rest
  | short short =>
      rw [← outcome] at short
      exact .short (blockStatements_after_short depth fuel (mt closing.mp unclosed) leftInside short)

theorem blockBody_trails (trailing : Trailing quoted nested nested') {start : Cursor → Prop} :
    (blockBody bound nested frames).Trails quoted start (blockBody bound' nested' frames) where
  beside left right follows clean := by
    have inner := blockStatements_trail trailing frames left.depth right.depth bound bound'
    rcases follows.advance with short | further
    · exact .short ((blockStatements_short left.depth bound short.past).map _)
    · exact Outcome.Trails.bind (inner.beside _ _ further) (fun _ _ => pure_trails _ _) clean
  short cursor _ short := (blockStatements_short cursor.depth bound short.past).map _
  honest cursor := by
    have inner := blockStatements_trail trailing frames cursor.depth cursor.depth bound bound'
    exact (inner.honest cursor.advance).map _

theorem block_trails (trailing : Trailing quoted nested nested') {start : Cursor → Prop} :
    (block bound nested frames).Trails quoted start (block bound' nested' frames) :=
  above_trails 2 frames fun left => room_trails 1 left (blockBody_trails trailing)

theorem braced_trails (trailing : Trailing quoted nested nested') {start : Cursor → Prop}
    {next other : Node → Production α}
    (continued : ∀ node node', (next node).Trails quoted (fun _ => True) (other node')) :
    (expect frames .lbrace >>= fun _ => block bound nested frames >>= next).Trails quoted start
      (expect frames .lbrace >>= fun _ => block bound' nested' frames >>= other) :=
  (expect_trails frames .lbrace (by decide)).bind fun _ _ => (block_trails trailing).bind continued

theorem alternative_trails (trailing : Trailing quoted nested nested') {start : Cursor → Prop} :
    (alternative bound nested frames).Trails quoted start (alternative bound' nested' frames) := by
  refine peek_trails fun token token' same => choice_trails (same.kind_iff (by decide)) ?_ ?_
  · intro _
    exact advance_trails (braced_trails trailing fun node node' => pure_trails _ _)
  · intro _
    exact pure_trails _ _

theorem conditional_trails (trailing : Trailing quoted nested nested') {start : Cursor → Prop} :
    (conditional bound nested frames).Trails quoted start (conditional bound' nested' frames) :=
  current_trails fun word word' _ => (expect_trails frames .lparen (by decide)).bind fun _ _ =>
    inside_trails trailing .lowest fun condition condition' =>
      (expect_trails frames .rparen (by decide)).bind fun _ _ =>
        braced_trails trailing fun consequence consequence' =>
          (alternative_trails trailing).bind fun other other' => pure_trails _ _

theorem function_trails (trailing : Trailing quoted nested nested') {start : Cursor → Prop} :
    (function bound nested frames).Trails quoted start (function bound' nested' frames) :=
  current_trails fun word word' _ => (expect_trails frames .lparen (by decide)).bind fun _ _ =>
    (above_trails 1 frames (parameters_trails bound bound')).bind fun names names' =>
      braced_trails trailing fun body body' => pure_trails _ _

theorem unary_trails (trailing : Trailing quoted nested nested') {start : Cursor → Prop}
    (operator : Operator) :
    (unary nested frames operator).Trails quoted start (unary nested' frames operator) :=
  current_trails fun _ _ _ => inside_trails trailing .unary fun _ _ => pure_trails _ _

theorem integer_trails (token : Token) (kind : token.kind = .int) : (integer frames token).Trails quoted
    (fun cursor => cursor.Over ∧ cursor.current = token) (integer frames token) := by
  have never (cursor : Cursor) : ¬ (cursor.Over ∧ cursor.current = token) := by
    rintro ⟨spent, rfl⟩
    rw [spent.ended] at kind
    cases kind
  unfold integer
  cases Text.readInteger token.literal with
  | error error =>
      exact ⟨fun _ _ _ clean => clean.elim, fun cursor ended => absurd ended (never cursor),
        fun _ => trivial⟩
  | ok value =>
      refine choice_trails Iff.rfl ?_ fun _ => pure_trails _ _
      exact fun _ => fail_trails frames fun cursor ended => absurd ended (never cursor)

theorem refuse_short {cursor : Cursor} (past : cursor.Past)
    (told : cursor.diagnostics = [] ∨ cursor.Marked) (kind : TokenKind) (line : Int)
    (missing : kind = .eof ∨ (kind = .illegal ∧ quoted)) (here : cursor.current.kind = kind) :
    ((refuse (.noOperand kind) line : Production Node) cursor).Short quoted := by
  refine ⟨past, ?_⟩
  rcases told with quiet | marked
  · refine .inr ⟨⟨kind, line, ?_, missing⟩, ?_⟩
    · rw [Cursor.report_diagnostics, quiet, List.nil_append]
    · change cursor.current.kind ≠ .rbrace
      rw [here]
      rcases missing with rfl | ⟨rfl, -⟩ <;> decide
  · exact .inl (marked.report _ _)

theorem operand_trails (trailing : Trailing quoted nested nested') :
    (operand bound nested frames).Trails quoted Cursor.Over (operand bound' nested' frames) := by
  refine token_trails ?_ ?_
  · intro token
    split
    · exact pure_trails _ _
    · next kind => exact integer_trails token kind
    · exact pure_trails _ _
    · exact pure_trails _ _
    · exact pure_trails _ _
    · exact unary_trails trailing .not
    · exact unary_trails trailing .sub
    · exact inside_trails trailing .lowest fun node node' =>
        (expect_trails frames .rparen (by decide)).bind fun _ _ => pure_trails _ _
    · exact conditional_trails trailing
    · exact function_trails trailing
    · exact current_trails fun token token' _ =>
        (above_trails 2 frames fun _ =>
          (expressions_trail trailing .rbracket (by decide)).anyhow).bind fun _ _ => pure_trails _ _
    · exact current_trails fun token token' _ =>
        (pairs_trail trailing bound bound').anyhow.bind fun pairs pairs' => pure_trails _ _
    · refine fail_trails _ ?_
      rintro cursor ⟨spent, rfl⟩ short
      exact refuse_short short.past short.told _ _ (.inl spent.ended) rfl
  · rintro open_text token illegal cursor rfl past quiet
    rw [illegal]
    change ((fail (frames + 1) (.noOperand .illegal) cursor.current.line : Production Node)
      cursor).Short quoted
    rcases fail_cases (frames + 1) (.noOperand .illegal) cursor.current.line cursor with
      missed | ⟨-, short⟩
    · exact missed ▸ refuse_short past (.inl quiet) _ _ (.inr ⟨rfl, open_text⟩) illegal
    · exact short ▸ trivial

theorem continuation_trails (trailing : Trailing quoted nested nested') (left left' : Node)
    {start : Cursor → Prop} :
    (continuation bound nested frames left).Trails quoted start (continuation bound' nested' frames left') := by
  refine current_trails fun token token' same => ?_
  rcases same with rfl | ⟨-, illegal, text | text⟩
  · split
    · exact (above_trails 2 frames fun _ =>
        (expressions_trail trailing .rparen (by decide)).anyhow).bind fun _ _ => pure_trails _ _
    · exact inside_trails trailing .lowest fun position position' =>
        (expect_trails frames .rbracket (by decide)).bind fun _ _ => pure_trails _ _
    · split
      · exact inside_trails trailing _ fun right right' => pure_trails _ _
      · exact pure_trails _ _
  · rw [illegal, text]
    exact pure_trails _ _
  · rw [illegal, text]
    exact pure_trails _ _

theorem extend_trails (trailing : Trailing quoted nested nested') (power : Power) (fuel fuel' : Nat)
    (left left' : Node) : (extend bound nested frames power fuel left).Trails quoted (fun _ => True)
      (extend bound' nested' frames power fuel' left') := by
  refine loop_trails (extend bound nested frames power) (extend bound' nested' frames power) (fun _ => rfl)
    (fun _ => rfl) ?_ fuel fuel' left left'
  intro fuel fuel' again left left'
  refine peek_trails fun token token' same => choice_trails (by rw [same.power]) ?_ ?_
  · intro _
    exact advance_trails ((continuation_trails trailing left left').bind again)
  · intro _
    exact pure_trails _ _

end Nested

theorem expression_trailing (bound bound' limit : Nat) :
    Trailing quoted (expression bound limit) (expression bound' limit) := by
  induction limit with
  | zero => exact fun _ _ => exhaust_trails
  | succ limit ih =>
      intro frames power
      rw [expression, expression]
      split
      · exact ih frames power
      refine above_trails 3 frames fun left => room_trails 1 left ?_
      exact (operand_trails ih).bind fun first first' => extend_trails ih power bound bound' first first'

/-- What a whole reading comes to whose stream ends early: it reports nothing, or a certain token that was
due, or nothing but an operand that was due. -/
def Curtailed (quoted : Prop) : Outcome (List Node) → Prop
  | .read _ cursor => cursor.diagnostics = [] ∨ cursor.Marked ∨ cursor.Wanting quoted
  | .tooDeep _ => True
  | _ => False

theorem Curtailed.cons {outcome : Outcome (List Node)} (curtailed : Curtailed quoted outcome)
    (node : Node) : Curtailed quoted (outcome.bind fun rest => pure (node :: rest)) := by
  cases outcome with
  | read nodes cursor => exact curtailed
  | failed cursor => exact curtailed.elim
  | tooDeep cursor => trivial
  | abandoned error => exact curtailed.elim

section Nested

variable {frames : Nat} {nested nested' : Nat → Power → Production Node}

theorem statements_over (fuel : Nat) {cursor : Cursor} (spent : cursor.Over)
    (told : cursor.diagnostics = [] ∨ cursor.Marked ∨ cursor.Wanting quoted) :
    Curtailed quoted (statements nested frames fuel cursor) := by
  cases fuel with
  | zero => trivial
  | succ fuel =>
      rw [statements_succ, if_pos spent.ended]
      exact told

theorem statements_after_short (fuel : Nat) {cursor : Cursor} (inside : cursor.current.kind ≠ .eof)
    (short : (statement nested frames cursor).Short quoted) :
    Curtailed quoted (statements nested frames (fuel + 1) cursor) := by
  rw [statements_succ, if_neg inside]
  cases result : statement nested frames cursor with
  | tooDeep after => trivial
  | abandoned error =>
      rw [result] at short
      exact short.elim
  | read node after =>
      rw [result] at short
      refine (statements_over fuel short.past ?_).cons node
      exact short.told.imp_right .inl
  | failed after =>
      rw [result] at short
      refine statements_over fuel short.1.resume (.inr ?_)
      exact short.2.imp_right And.left

theorem statements_clean (sound : Sound nested) {fuel : Nat} {cursor : Cursor}
    (clean : (statements nested frames (fuel + 1) cursor).Clean) :
    cursor.current.kind = .eof ∨ (cursor.current.kind ≠ .eof ∧
      ∃ node after, statement nested frames cursor = .read node after ∧ after.diagnostics = [] ∧
        (statements nested frames fuel after.advance).Clean) := by
  have again (cursor : Cursor) := (statements_yield sound frames fuel cursor).honest
  rw [statements_succ] at clean
  split at clean
  · next ended => exact .inl ended
  next inside =>
  refine .inr ⟨inside, ?_⟩
  have first := (statement_yields sound frames cursor).honest
  cases result : statement nested frames cursor with
  | tooDeep after =>
      rw [result] at clean
      exact clean.elim
  | abandoned error =>
      rw [result] at clean
      exact clean.elim
  | failed after =>
      rw [result] at clean first
      exact absurd clean ((again _).unclean first)
  | read node after =>
      rw [result] at clean
      have rest : (statements nested frames fuel after.advance).Clean := clean.of_map
      exact ⟨node, after, rfl, rest.start (again _), rest⟩

theorem statements_curtailed (trailing : Trailing quoted nested nested') (sound : Sound nested')
    (fuel fuel' : Nat) {left right : Cursor} (follows : left.Follows quoted right)
    (clean : (statements nested' frames fuel' right).Clean) :
    Curtailed quoted (statements nested frames fuel left) := by
  induction fuel generalizing fuel' left right with
  | zero => trivial
  | succ fuel ih =>
      cases fuel' with
      | zero => exact clean.elim
      | succ fuel' =>
          rcases statements_clean sound clean with ended | ⟨inside, node', right', result, quiet, rest⟩
          · rw [statements_succ, if_pos (follows.stands.eof_iff.mpr ended)]
            exact .inl follows.quiet
          have leftInside : left.current.kind ≠ .eof := mt follows.stands.eof_iff.mp inside
          have trails := (statement_trails trailing frames).beside left right follows
          rw [result] at trails
          generalize outcome : statement nested frames left = one at trails
          cases trails quiet with
          | @beside node _ left' _ follows' =>
              rw [statements_succ, if_neg leftInside, outcome]
              refine Curtailed.cons ?_ node
              rcases follows'.advance with short | further
              · exact statements_over fuel short.past (.inl follows'.quiet)
              · exact ih fuel' further rest
          | short short =>
              rw [← outcome] at short
              exact statements_after_short fuel leftInside short

end Nested

end Grammar

end Marmoset
