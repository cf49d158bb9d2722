import Marmoset.Proofs.Grammar.Congruence
import Marmoset.Proofs.Grammar.Soundness

/-!
Two readings abreast. They start at cursors that need not be the same, and each has its own bound on
loops; but they see the same wherever one of them looks, so they read the same, fail alike and report
the same. A bound is never met, since every round of a loop passes over a token of the stream. Where the
first reading may have fewer frames left, it may be broken off earlier. Two readings may also part inside
a block, where the stream of the first one ends; then the first one is void.
-/

namespace Marmoset

def Cursor.Over (cursor : Cursor) : Prop := ∀ token ∈ cursor.tokens, token.kind = .eof

/-- How the cursors of two readings stand to each other. -/
structure Track (congruence : Congruence) where
  near : Cursor → Cursor → Prop
  /-- The two see the same behind a semicolon too. -/
  onward : Prop
  /-- Blocks are read. -/
  braced : Prop
  /-- The first one may have fewer frames left. -/
  scarce : Prop
  current : ∀ {left right}, near left right → congruence.token left.current right.current
  peek : ∀ {left right}, near left right → onward ∨ left.current.kind ≠ .semicolon →
    congruence.token left.peek right.peek
  advance : ∀ {left right}, near left right → onward ∨ left.current.kind ≠ .semicolon →
    near left.advance right.advance
  report : ∀ {left right token other} problem, near left right → congruence.token token other →
    near (left.report problem token.line) (right.report problem other.line)
  /-- More braces are open on the one side exactly where there are on the other. -/
  depth : ∀ {left right before behind}, near left right → near before behind →
    (behind.depth < right.depth ↔ before.depth < left.depth)
  opened : ∀ {left right}, near left right → left.current.kind = .lbrace → braced
  /-- Where the two part behind a semicolon, the first one has come to its end. -/
  behind : ∀ {left right}, braced → near left right →
    near left.advance right.advance ∨ (¬ onward ∧ left.advance.Over)
  resumed : ∀ {left right}, braced → near left right →
    near left.resume.advance right.resume.advance ∨ (¬ onward ∧ left.resume.advance.Over)

namespace Cursor

theorem advance_few {cursor : Cursor} {size : Nat} (few : cursor.tokens.length < size) :
    cursor.advance.tokens.length < size :=
  Nat.lt_of_le_of_lt (Leads.advance .refl).suffix.length_le few

theorem fewer_ahead {cursor : Cursor} {size : Nat} (inside : cursor.peek.kind ≠ .eof)
    (few : cursor.tokens.length < size + 1) : cursor.advance.tokens.length < size := by
  have there : cursor.tokens.tail ≠ [] := by
    intro nothing
    rw [cursor.peek_kind, nothing] at inside
    exact inside rfl
  have filled := List.length_pos_iff.mpr there
  rw [advance_tokens]
  rw [List.length_tail] at filled ⊢
  omega

theorem Over.leads {start after : Cursor} (spent : start.Over) (leads : start.Leads after) :
    after.Over :=
  fun token member => spent token (leads.suffix.subset member)

theorem Over.ended {cursor : Cursor} (spent : cursor.Over) : cursor.current.kind = .eof := by
  rw [current_kind]
  cases stream : cursor.tokens with
  | nil => rfl
  | cons token rest => exact spent token (by rw [stream]; exact List.mem_cons_self)

end Cursor

variable {congruence : Congruence} {track : Track congruence} {α β : Type}

def Track.Firm (track : Track congruence) (cursor : Cursor) : Prop :=
  track.onward ∨ cursor.current.kind ≠ .semicolon

theorem Track.firm_of_kind (kind : TokenKind) (plain : kind ≠ .semicolon) {cursor : Cursor}
    (here : cursor.current.kind = kind) : track.Firm cursor :=
  .inr (here ▸ plain)

def Track.Spares (track : Track congruence) (frames frames' : Nat) : Prop :=
  frames = frames' ∨ (track.scarce ∧ frames ≤ frames')

theorem Track.Spares.le {frames frames' : Nat} (spares : track.Spares frames frames') :
    frames ≤ frames' := by
  rcases spares with rfl | ⟨-, fewer⟩
  · exact Nat.le_refl _
  · exact fewer

theorem Track.Spares.less {frames frames' : Nat} (spares : track.Spares frames frames') (calls : Nat) :
    track.Spares (frames - calls) (frames' - calls) := by
  rcases spares with rfl | ⟨scarce, fewer⟩
  · exact .inl rfl
  · exact .inr ⟨scarce, Nat.sub_le_sub_right fewer calls⟩

theorem Track.Spares.more {frames frames' : Nat} (spares : track.Spares frames frames') :
    track.Spares (frames + 1) (frames' + 1) := by
  rcases spares with rfl | ⟨scarce, fewer⟩
  · exact .inl rfl
  · exact .inr ⟨scarce, Nat.succ_le_succ fewer⟩

/-- The outcome of a reading that has come to the end of its stream in the middle of a phrase. -/
def Outcome.Void : Outcome α → Prop
  | .failed cursor => cursor.Over
  | .tooDeep _ => True
  | _ => False

theorem Outcome.Void.bind {outcome : Outcome α} (void : outcome.Void) (next : α → Production β) :
    (outcome.bind next).Void := by
  cases outcome with
  | read value cursor => exact void.elim
  | failed cursor => exact void
  | tooDeep cursor => trivial
  | abandoned error => exact void.elim

/-- Two outcomes abreast: both have read the same, or both have failed, or both have met the end of the
stack or the same literal that is no integer; or else the first one was short of frames, or is void.
Fewer than `size` tokens are left on the first side. -/
inductive Outcome.Abreast (track : Track congruence) (size : Nat) (after : Cursor → Prop)
    (related : α → α → Prop) : Outcome α → Outcome α → Prop
  | read {left right : Cursor} {value other : α} (same : related value other)
      (near : track.near left right) (few : left.tokens.length < size) (holds : after left) :
      Abreast track size after related (.read value left) (.read other right)
  | failed {left right : Cursor} (near : track.near left right)
      (few : left.tokens.length < size) :
      Abreast track size after related (.failed left) (.failed right)
  | tooDeep {left right : Cursor} (near : track.near left right) :
      Abreast track size after related (.tooDeep left) (.tooDeep right)
  | scarce {left : Cursor} {second : Outcome α} (scarce : track.scarce) :
      Abreast track size after related (.tooDeep left) second
  | abandoned {left right : Cursor} {error : Text.IntegerError} (near : track.near left right)
      (kind : left.current.kind = .int)
      (malformed : Text.readInteger left.current.literal = .error error) :
      Abreast track size after related (.abandoned error) (.abandoned error)
  | parted {first second : Outcome α} (parts : track.braced ∧ ¬ track.onward) (void : first.Void) :
      Abreast track size after related first second

def Production.Abreast (track : Track congruence) (size : Nat) (before after : Cursor → Prop)
    (related : α → α → Prop) (first second : Production α) : Prop :=
  ∀ left right, track.near left right → left.tokens.length < size → before left →
    (first left).Abreast track size after related (second right)

namespace Outcome

variable {size : Nat} {middle after : Cursor → Prop} {related : α → α → Prop}
  {result : β → β → Prop} {first second : Outcome α}

theorem Abreast.bind {next other : α → Production β}
    (abreast : first.Abreast track size middle related second)
    (continued : ∀ value value', related value value' →
      (next value).Abreast track size middle after result (other value')) :
    (first.bind next).Abreast track size after result (second.bind other) := by
  cases abreast with
  | read same near few holds => exact continued _ _ same _ _ near few holds
  | failed near few => exact .failed near few
  | tooDeep near => exact .tooDeep near
  | scarce scarce => exact .scarce scarce
  | abandoned near kind malformed => exact .abandoned near kind malformed
  | parted parts void => exact .parted parts (void.bind next)

theorem Abreast.mono {larger : Nat} {weaker : Cursor → Prop}
    (abreast : first.Abreast track size after related second) (order : size ≤ larger)
    (implied : ∀ cursor, after cursor → weaker cursor) :
    first.Abreast track larger weaker related second := by
  cases abreast with
  | read same near few holds =>
      exact .read same near (Nat.lt_of_lt_of_le few order) (implied _ holds)
  | failed near few => exact .failed near (Nat.lt_of_lt_of_le few order)
  | tooDeep near => exact .tooDeep near
  | scarce scarce => exact .scarce scarce
  | abandoned near kind malformed => exact .abandoned near kind malformed
  | parted parts void => exact .parted parts void

end Outcome

namespace Production

variable {size frames frames' : Nat} {before middle after : Cursor → Prop} {related : α → α → Prop}
  {result : β → β → Prop} {first second : Production α}

theorem Abreast.bind {next other : α → Production β}
    (abreast : first.Abreast track size before middle related second)
    (continued : ∀ value value', related value value' →
      (next value).Abreast track size middle after result (other value')) :
    (first >>= next).Abreast track size before after result (second >>= other) :=
  fun left right near few holds => (abreast left right near few holds).bind continued

/-- What follows does not look at what came first. -/
theorem Abreast.seq {next other : Production β}
    (abreast : first.Abreast track size before middle related second)
    (continued : next.Abreast track size middle after result other) :
    (first >>= fun _ => next).Abreast track size before after result (second >>= fun _ => other) :=
  abreast.bind fun _ _ _ => continued

theorem Abreast.under {stricter : Cursor → Prop}
    (abreast : first.Abreast track size before after related second)
    (needed : ∀ cursor, stricter cursor → before cursor) :
    first.Abreast track size stricter after related second :=
  fun left right near few holds => abreast left right near few (needed left holds)

theorem pure_abreast {value other : α} (same : related value other) :
    (pure value : Production α).Abreast track size before before related (pure other) :=
  fun _ _ near few holds => .read same near few holds

theorem refuse_abreast (problem : Problem) {token other : Token} (same : congruence.token token other) :
    (refuse problem token.line : Production α).Abreast track size before after related
      (refuse problem other.line) :=
  fun _ _ near few _ => .failed (track.report problem near same) few

theorem exhaust_abreast :
    (exhaust : Production α).Abreast track size before after related exhaust :=
  fun _ _ near _ _ => .tooDeep near

theorem choice_abreast {condition : Prop} [Decidable condition]
    {chosen chosen' rejected rejected' : Production α}
    (positive : condition → chosen.Abreast track size before after related chosen')
    (negative : ¬ condition → rejected.Abreast track size before after related rejected') :
    (if condition then chosen else rejected).Abreast track size before after related
      (if condition then chosen' else rejected') := by
  by_cases holds : condition
  · rw [if_pos holds, if_pos holds]
    exact positive holds
  · rw [if_neg holds, if_neg holds]
    exact negative holds

theorem current_abreast {next other : Token → Production α}
    (continued : ∀ token token', congruence.token token token' → (next token).Abreast track size
      (fun cursor => before cursor ∧ cursor.current = token) after related (other token')) :
    (current >>= next).Abreast track size before after related (current >>= other) := by
  intro left right near few holds
  simp only [bind_apply, current_apply, Outcome.read_bind]
  exact continued _ _ (track.current near) left right near few ⟨holds, rfl⟩

theorem room_abreast (needed : Nat) (spares : track.Spares frames frames') :
    (room needed frames).Abreast track size before before (fun _ _ => True) (room needed frames') := by
  intro left right near few holds
  by_cases enough : needed ≤ frames
  · rw [room_apply enough, room_apply (Nat.le_trans enough spares.le)]
    exact .read trivial near few holds
  rw [room_short (Nat.lt_of_not_le enough)]
  rcases spares with rfl | ⟨scarce, -⟩
  · rw [room_short (Nat.lt_of_not_le enough)]
    exact .tooDeep near
  · exact .scarce scarce

theorem above_abreast (calls : Nat) (spares : track.Spares frames frames')
    {production production' : Nat → Production α}
    (continued : (production (frames - calls)).Abreast track size before after related
      (production' (frames' - calls))) :
    (above calls frames production).Abreast track size before after related
      (above calls frames' production') :=
  (room_abreast calls spares).seq continued

theorem fail_abreast (spares : track.Spares frames frames') (problem : Problem) {token other : Token}
    (same : congruence.token token other) :
    (fail frames problem token.line : Production α).Abreast track size before after related
      (fail frames' problem other.line) :=
  (room_abreast 2 spares).seq (refuse_abreast problem same)

theorem peek_abreast {next other : Token → Production α}
    (continued : ∀ token token', token'.kind = token.kind → (next token).Abreast track size
      (fun cursor => track.Firm cursor ∧ cursor.peek = token) after related (other token')) :
    (peek >>= next).Abreast track size track.Firm after related (peek >>= other) := by
  intro left right near few firm
  simp only [bind_apply, peek_apply, Outcome.read_bind]
  exact continued _ _ (congruence.kind (track.peek near firm)) left right near few ⟨firm, rfl⟩

theorem advance_abreast :
    advance.Abreast track size track.Firm (fun _ => True) (fun _ _ => True) advance := by
  intro left right near few firm
  exact .read trivial (track.advance near firm) (Cursor.advance_few few) trivial

theorem advance_into {next other : Production α} (token : Token) (inside : token.kind ≠ .eof)
    (continued : next.Abreast track size (fun cursor => cursor.current = token) after related other) :
    (advance >>= fun _ => next).Abreast track (size + 1)
      (fun cursor => track.Firm cursor ∧ cursor.peek = token) after related
      (advance >>= fun _ => other) := by
  rintro left right near few ⟨firm, rfl⟩
  exact (continued _ _ (track.advance near firm) (Cursor.fewer_ahead inside few) rfl).mono
    (Nat.le_succ size) fun _ holds => holds

theorem advance_onto_abreast (token : Token) :
    advance.Abreast track size (fun cursor => track.Firm cursor ∧ cursor.peek = token)
      (fun cursor => cursor.current = token) (fun _ _ => True) advance := by
  rintro left right near few ⟨firm, rfl⟩
  exact .read trivial (track.advance near firm) (Cursor.advance_few few) rfl

theorem expect_abreast (spares : track.Spares frames frames') (kind : TokenKind) :
    (expect frames kind).Abreast track size track.Firm (fun cursor => cursor.current.kind = kind)
      (fun _ _ => True) (expect frames' kind) := by
  apply (room_abreast 2 spares).seq
  intro left right near few firm
  have next := track.peek near firm
  simp only [bind_apply, peek_apply, Outcome.read_bind, congruence.kind next]
  split
  · next same => exact .read trivial (track.advance near firm) (Cursor.advance_few few) same
  · exact fail_abreast (spares.less 1) _ next left right near few firm

theorem closed_abreast (spares : track.Spares frames frames') (kind : TokenKind)
    (plain : kind ≠ .semicolon) {value other : α} (same : related value other) :
    (expect frames kind >>= fun _ => pure value).Abreast track size track.Firm track.Firm related
      (expect frames' kind >>= fun _ => pure other) :=
  (expect_abreast spares kind).seq
    ((pure_abreast same).under fun _ => track.firm_of_kind _ plain)

theorem expect_into (spares : track.Spares frames frames') {next other : Production α}
    (kind : TokenKind) (inside : kind ≠ .eof) (plain : kind ≠ .semicolon)
    (continued : next.Abreast track size track.Firm after related other) :
    (expect frames kind >>= fun _ => next).Abreast track (size + 1) track.Firm after related
      (expect frames' kind >>= fun _ => other) := by
  intro left right near few firm
  have found := expect_abreast spares kind left right near few firm
  rw [bind_apply, bind_apply]
  generalize expect frames' kind right = second at found ⊢
  rcases expect_cases frames kind left with ⟨same, read⟩ | ⟨-, missed⟩ | ⟨-, short⟩
  · rw [read] at found ⊢
    have fewer := Cursor.fewer_ahead (same ▸ inside) few
    cases found with
    | read _ near' _ here =>
        exact (continued _ _ near' fewer (track.firm_of_kind _ plain here)).mono (Nat.le_succ size)
          fun _ holds => holds
    | parted parts void => exact void.elim
  · rw [missed] at found ⊢
    cases found with
    | failed near' few' => exact .failed near' few'
    | parted parts void => exact .parted parts void
  · rw [short] at found ⊢
    cases found with
    | tooDeep near' => exact .tooDeep near'
    | scarce scarce => exact .scarce scarce
    | parted parts void => exact .parted parts void

theorem accept_abreast (kind : TokenKind) :
    (accept kind).Abreast track size track.Firm (fun _ => True) (fun _ _ => True) (accept kind) := by
  intro left right near few firm
  rw [accept, accept, congruence.kind (track.peek near firm)]
  split
  · exact advance_abreast left right near few firm
  · exact .read trivial near few trivial

/-- A loop that passes over a token in every round has fuel enough when there is some for every
token. -/
theorem loop_abreast {loop other : Nat → Production α} {limit : Nat}
    (round : ∀ size fuel fuel', size < limit →
      (loop fuel).Abreast track size before after related (other fuel') →
      (loop (fuel + 1)).Abreast track (size + 1) before after related (other (fuel' + 1)))
    (fuel fuel' : Nat) (within : size ≤ limit) (room : size ≤ fuel) (room' : size ≤ fuel') :
    (loop fuel).Abreast track size before after related (other fuel') := by
  induction size generalizing fuel fuel' with
  | zero => exact fun _ _ _ few _ => absurd few (Nat.not_lt_zero _)
  | succ size ih =>
      obtain ⟨fuel, rfl⟩ : ∃ less, fuel = less + 1 := ⟨fuel - 1, by omega⟩
      obtain ⟨fuel', rfl⟩ : ∃ less, fuel' = less + 1 := ⟨fuel' - 1, by omega⟩
      exact round size fuel fuel' within (ih fuel fuel' (by omega) (by omega) (by omega))

end Production

namespace Grammar

open Production

theorem name_abreast {size frames frames' : Nat} (spares : track.Spares frames frames')
    {after : Cursor → Prop} {related : α → α → Prop} {next other : Token → Production α}
    (continued : ∀ token token', congruence.name (nameOf token) (nameOf token') →
      (next token).Abreast track size track.Firm after related (other token')) :
    (expect frames .ident >>= fun _ => current >>= next).Abreast track size track.Firm after related
      (expect frames' .ident >>= fun _ => current >>= other) := by
  apply (expect_abreast spares .ident).seq
  intro left right near few kind
  have same := congruence.named (track.current near) kind
  exact continued _ _ same left right near few (track.firm_of_kind _ (by decide) kind)

theorem moreParameters_abreast {size frames frames' : Nat} (spares : track.Spares frames frames')
    (fuel fuel' : Nat) (room : size ≤ fuel) (room' : size ≤ fuel') :
    (moreParameters frames fuel).Abreast track size track.Firm track.Firm (List.Forall₂ congruence.name)
      (moreParameters frames' fuel') := by
  refine loop_abreast ?_ fuel fuel' (Nat.le_refl size) room room'
  intro size fuel fuel' _ again
  apply peek_abreast
  intro token token' alike
  rw [alike]
  apply choice_abreast
  · intro comma
    apply advance_into token (by rw [comma]; decide)
    apply Abreast.under (name_abreast spares ?_)
    · exact fun cursor here => track.firm_of_kind .comma (by decide) (by rw [here, comma])
    · exact fun name name' same => again.bind fun names names' others =>
        pure_abreast (.cons same others)
  · intro _
    exact (closed_abreast spares .rparen (by decide) .nil).under fun _ => And.left

theorem parameters_abreast {size frames frames' : Nat} (spares : track.Spares frames frames')
    (bound bound' : Nat) (room : size ≤ bound) (room' : size ≤ bound') :
    (parameters bound frames).Abreast track size track.Firm track.Firm (List.Forall₂ congruence.name)
      (parameters bound' frames') := by
  apply (room_abreast 1 spares).seq
  apply peek_abreast
  intro token token' alike
  rw [alike]
  apply choice_abreast
  · intro closed
    apply (advance_onto_abreast token).seq
    exact (pure_abreast .nil).under fun cursor here =>
      track.firm_of_kind .rparen (by decide) (by rw [here, closed])
  · intro _
    apply Abreast.under (name_abreast spares ?_) fun _ => And.left
    intro name name' same
    exact (moreParameters_abreast spares bound bound' room room').bind fun names names' others =>
      pure_abreast (.cons same others)

structure Together (track : Track congruence) (limit frames frames' : Nat)
    (nested nested' : Nat → Power → Production Node) : Prop where
  spares : track.Spares frames frames'
  inside : ∀ {size left left' : Nat} {power : Power}, size ≤ limit → Power.lowest ≤ power →
    track.Spares left left' → left ≤ frames → left' ≤ frames' →
    (nested left power).Abreast track size (fun _ => True) track.Firm congruence.expression
      (nested' left' power)

theorem Together.above {limit frames frames' : Nat} {nested nested' : Nat → Power → Production Node}
    (together : Together track limit frames frames' nested nested') (calls : Nat) :
    Together track limit (frames - calls) (frames' - calls) nested nested' where
  spares := together.spares.less calls
  inside within low spares few few' :=
    together.inside within low spares (Nat.le_trans few (Nat.sub_le frames calls))
      (Nat.le_trans few' (Nat.sub_le frames' calls))

section Nested

variable {bound bound' limit size frames frames' : Nat}
  {nested nested' : Nat → Power → Production Node}

theorem fewer_behind {start after : Cursor} (inside : start.current.kind ≠ .eof)
    (few : start.tokens.length < size + 1) (left : after.tokens.length < size + 1) :
    after.advance.tokens.length < size := by
  have filled : 0 < start.tokens.length := by
    rw [start.tokens_of_current inside]
    exact Nat.succ_pos _
  rw [Cursor.advance_tokens, List.length_tail]
  omega

theorem fewer_resumed {start after : Cursor} (inside : start.current.kind ≠ .eof)
    (few : start.tokens.length < size + 1) (left : after.tokens.length < size + 1) :
    after.resume.advance.tokens.length < size :=
  fewer_behind inside few (Nat.lt_of_le_of_lt after.resume_leads.suffix.length_le left)

theorem blockStatements_void (nested : Nat → Power → Production Node) (frames : Nat) (depth : Int)
    (fuel : Nat) {cursor : Cursor} (spent : cursor.Over) :
    (blockStatements nested frames depth fuel cursor).Void := by
  cases fuel with
  | zero => trivial
  | succ fuel =>
      have ended := spent.ended
      rw [blockStatements_succ, if_neg (by rw [ended]; decide), if_pos ended]
      rcases fail_cases frames (.expected .rbrace .eof) cursor.current.line cursor with
        missed | ⟨-, short⟩
      · exact missed ▸ spent.leads (Cursor.Leads.refl.report _ _)
      · exact short ▸ trivial

theorem integer_abreast (spares : track.Spares frames frames') {token token' : Token}
    (alike : congruence.token token token') (kind : token.kind = .int) :
    (integer frames token).Abreast track size (fun cursor => cursor.current = token) track.Firm
      congruence.expression (integer frames' token') := by
  rintro left right near few rfl
  unfold integer
  rw [congruence.literal alike]
  cases read : Text.readInteger left.current.literal with
  | error error => exact .abandoned near kind read
  | ok value =>
      dsimp only
      split
      · exact (fail_abreast spares _ alike : Abreast track size (fun _ => True) _ _ _ _)
          left right near few trivial
      · next small =>
          exact .read (congruence.integer alike kind read (Int.not_lt.mp small)) near few
            (track.firm_of_kind _ (by decide) kind)

variable (together : Together track limit frames frames' nested nested')
include together

theorem whole_abreast (within : size ≤ limit) :
    (nested frames .lowest).Abreast track size (fun _ => True) track.Firm congruence.expression
      (nested' frames' .lowest) :=
  together.inside within (Nat.le_refl Power.lowest) together.spares (Nat.le_refl frames)
    (Nat.le_refl frames')

theorem inside_abreast (within : size ≤ limit)
    {power : Power} (low : Power.lowest ≤ power) {after : Cursor → Prop} {related : α → α → Prop}
    {next other : Node → Production α}
    (continued : ∀ node node', congruence.expression node node' →
      (next node).Abreast track size track.Firm after related (other node')) :
    (advance >>= fun _ => nested frames power >>= next).Abreast track size track.Firm after related
      (advance >>= fun _ => nested' frames' power >>= other) :=
  advance_abreast.seq ((together.inside within low together.spares (Nat.le_refl frames)
    (Nat.le_refl frames')).bind continued)

theorem items_abreast (close : TokenKind)
    (plain : close ≠ .semicolon) (fuel fuel' : Nat) (within : size ≤ limit) (room : size ≤ fuel)
    (room' : size ≤ fuel') :
    (items nested frames close fuel).Abreast track size (fun _ => True) track.Firm
      (List.Forall₂ congruence.expression) (items nested' frames' close fuel') := by
  apply loop_abreast _ fuel fuel' within room room'
  intro size fuel fuel' within again
  apply (whole_abreast together within).bind
  intro item item' same
  apply peek_abreast
  intro token token' alike
  rw [alike]
  apply choice_abreast
  · intro comma
    apply advance_into token (by rw [comma]; decide)
    apply Abreast.seq (advance_abreast.under ?_)
    · exact again.bind fun rest rest' others => pure_abreast (.cons same others)
    · exact fun cursor here => track.firm_of_kind .comma (by decide) (by rw [here, comma])
  · intro _
    exact (closed_abreast together.spares close plain (.cons same .nil)).under fun _ => And.left

theorem expressions_abreast (close : TokenKind)
    (plain : close ≠ .semicolon) (within : size ≤ limit) (room : size ≤ bound)
    (room' : size ≤ bound') :
    (expressions bound nested frames close).Abreast track size track.Firm track.Firm
      (List.Forall₂ congruence.expression) (expressions bound' nested' frames' close) := by
  apply (room_abreast 1 together.spares).seq
  apply peek_abreast
  intro token token' alike
  rw [alike]
  apply choice_abreast
  · intro closed
    apply (advance_onto_abreast token).seq
    exact (pure_abreast .nil).under fun cursor here =>
      track.firm_of_kind _ plain (by rw [here, closed])
  · intro _
    apply Abreast.seq (advance_abreast.under fun _ => And.left)
    exact items_abreast together close plain bound bound' within room room'

theorem pairs_abreast (fuel fuel' : Nat)
    (within : size ≤ limit) (room : size ≤ fuel) (room' : size ≤ fuel') :
    (pairs nested frames fuel).Abreast track size track.Firm track.Firm (List.Forall₂ congruence.pair)
      (pairs nested' frames' fuel') := by
  apply loop_abreast _ fuel fuel' within room room'
  intro size fuel fuel' within again
  have fewer : size ≤ limit := Nat.le_of_lt within
  apply peek_abreast
  intro token token' alike
  rw [alike]
  apply choice_abreast
  · intro _
    exact (closed_abreast together.spares .rbrace (by decide) .nil).under fun _ => And.left
  · intro _
    apply Abreast.seq (advance_abreast.under fun _ => And.left)
    apply (whole_abreast together within).bind
    intro key key' sameKey
    apply expect_into together.spares .colon (by decide) (by decide)
    apply inside_abreast together fewer (Nat.le_refl _)
    intro value value' sameValue
    have same : congruence.pair (key, value) (key', value') := ⟨sameKey, sameValue⟩
    have rest := again.bind fun rest rest' others => pure_abreast (List.Forall₂.cons same others)
    apply peek_abreast
    intro next next' alike
    rw [alike]
    apply choice_abreast
    · intro _
      exact rest.under fun _ => And.left
    · intro _
      apply Abreast.seq ((expect_abreast together.spares .comma).under fun _ => And.left)
      exact rest.under fun _ => track.firm_of_kind _ (by decide)

theorem ended_abreast (within : size ≤ limit)
    {make make' : Node → Node}
    (made : ∀ value value', congruence.expression value value' →
      congruence.statement (make value) (make' value')) :
    (do
      let value ← nested frames .lowest
      accept .semicolon
      pure (make value)).Abreast track size (fun _ => True) (fun _ => True) congruence.statement (do
        let value ← nested' frames' .lowest
        accept .semicolon
        pure (make' value)) :=
  (whole_abreast together within).bind fun value value' same =>
    (accept_abreast .semicolon).seq (pure_abreast (made value value' same))

theorem statement_abreast (within : size ≤ limit) :
    (statement nested frames).Abreast track size (fun _ => True) (fun _ => True) congruence.statement
      (statement nested' frames') := by
  apply above_abreast 4 together.spares
  replace together := together.above 4
  apply current_abreast
  intro first first' alike
  have firm (word : first.kind ≠ .semicolon) (cursor : Cursor)
      (here : True ∧ cursor.current = first) : track.Firm cursor :=
    .inr (by rw [here.2]; exact word)
  rw [congruence.kind alike]
  split
  · next word =>
      apply current_abreast
      intro again again' same
      apply Abreast.under (name_abreast together.spares ?_)
      · exact fun cursor here => firm (by rw [word]; decide) cursor here.1
      · intro name name' named
        apply Abreast.seq (expect_abreast together.spares .assign)
        apply Abreast.seq (advance_abreast.under fun _ => track.firm_of_kind _ (by decide))
        exact ended_abreast together within fun value value' inner =>
          congruence.binding same named inner
  · next word =>
      apply (room_abreast 1 together.spares).seq
      apply current_abreast
      intro again again' same
      apply Abreast.seq (advance_abreast.under ?_)
      · exact ended_abreast together within fun value value' inner => congruence.returning same inner
      · exact fun cursor here => firm (by rw [word]; decide) cursor here.1
  · apply current_abreast
    intro again again' same
    apply Abreast.under (ended_abreast together within ?_) fun _ _ => trivial
    exact fun value value' inner => congruence.bare same inner

theorem blockStatements_abreast
    (braced : track.braced) {start start' : Cursor} (entered : track.near start start')
    (fuel fuel' : Nat) (within : size ≤ limit) (room : size ≤ fuel) (room' : size ≤ fuel') :
    (blockStatements nested frames start.depth fuel).Abreast track size (fun _ => True)
      (fun cursor => cursor.current.kind = .rbrace) (List.Forall₂ congruence.statement)
      (blockStatements nested' frames' start'.depth fuel') := by
  refine loop_abreast ?_ fuel fuel' within room room'
  intro size fuel fuel' within again left right near few _
  rw [blockStatements_succ, blockStatements_succ, congruence.kind (track.current near)]
  split
  · next closed => exact .read .nil near few closed
  split
  · exact (fail_abreast together.spares _ (track.current near) : Abreast track _ (fun _ => True) _ _ _ _)
      left right near few trivial
  · next inside =>
      have first := statement_abreast together within left right near few trivial
      generalize statement nested frames left = one at first ⊢
      generalize statement nested' frames' right = two at first ⊢
      cases first with
      | @read left' right' node node' same near' few' _ =>
          rcases track.behind braced near' with further | ⟨apart, spent⟩
          · have rest := again _ _ further (fewer_behind inside few few') trivial
            exact (rest.bind fun nodes nodes' others => pure_abreast (.cons same others)).mono
              (Nat.le_succ size) fun _ holds => holds
          · exact .parted ⟨braced, apart⟩ ((blockStatements_void nested frames _ fuel spent).bind _)
      | failed near' few' =>
          simp only [congruence.kind (track.current near'), track.depth entered near']
          split
          · next closed => exact .read .nil near' few' closed.1
          · rcases track.resumed braced near' with further | ⟨apart, spent⟩
            · have rest := again _ _ further (fewer_resumed inside few few') trivial
              exact rest.mono (Nat.le_succ size) fun _ holds => holds
            · exact .parted ⟨braced, apart⟩ (blockStatements_void nested frames _ fuel spent)
      | tooDeep near' => exact .tooDeep near'
      | scarce scarce => exact .scarce scarce
      | abandoned near' kind malformed => exact .abandoned near' kind malformed
      | parted parts void =>
          refine .parted parts ?_
          cases one with
          | read node after => exact void.elim
          | abandoned error => exact void.elim
          | tooDeep after => trivial
          | failed after =>
              have spent : after.resume.advance.Over := Cursor.Over.leads void after.resume_leads.advance
              have ended : after.current.kind = .eof := Cursor.Over.ended void
              have going : ¬ (after.current.kind = .rbrace ∧ after.depth < start.depth) := by
                rw [ended]
                simp
              simp only [if_neg going]
              exact blockStatements_void nested frames _ fuel spent

theorem blockBody_abreast
    (within : size ≤ limit) (room : size ≤ bound) (room' : size ≤ bound') :
    (blockBody bound nested frames).Abreast track size (fun cursor => cursor.current.kind = .lbrace)
      track.Firm congruence.block (blockBody bound' nested' frames') := by
  intro left right near few opened
  have braced := track.opened near opened
  have same := track.current near
  have inner := blockStatements_abreast together braced near bound bound' within room room'
  apply Outcome.Abreast.bind
  · exact inner _ _ (track.advance near (track.firm_of_kind _ (by decide) opened))
      (Cursor.advance_few few) trivial
  · intro statements statements' alike left right near few closed
    exact .read (congruence.braces same alike) near few (track.firm_of_kind _ (by decide) closed)

theorem block_abreast
    (within : size ≤ limit) (room : size ≤ bound) (room' : size ≤ bound') :
    (block bound nested frames).Abreast track size (fun cursor => cursor.current.kind = .lbrace)
      track.Firm congruence.block (block bound' nested' frames') := by
  apply above_abreast 2 together.spares
  replace together := together.above 2
  exact (room_abreast 1 together.spares).seq (blockBody_abreast together within room room')

theorem braced_abreast (within : size ≤ limit)
    (room : size ≤ bound) (room' : size ≤ bound') {related : α → α → Prop}
    {next other : Node → Production α}
    (continued : ∀ node node', congruence.block node node' →
      (next node).Abreast track size track.Firm track.Firm related (other node')) :
    (expect frames .lbrace >>= fun _ => block bound nested frames >>= next).Abreast track size
      track.Firm track.Firm related
      (expect frames' .lbrace >>= fun _ => block bound' nested' frames' >>= other) :=
  (expect_abreast together.spares .lbrace).seq
    ((block_abreast together within room room').bind continued)

theorem alternative_abreast (within : size ≤ limit)
    (room : size ≤ bound) (room' : size ≤ bound') :
    (alternative bound nested frames).Abreast track size track.Firm track.Firm (Option.Rel congruence.block)
      (alternative bound' nested' frames') := by
  apply peek_abreast
  intro token token' alike
  rw [alike]
  apply choice_abreast
  · intro word
    apply (advance_onto_abreast token).seq
    apply Abreast.under (braced_abreast together within room room' ?_)
    · exact fun cursor here => track.firm_of_kind .elseWord (by decide) (by rw [here, word])
    · exact fun node node' same => pure_abreast (.some same)
  · intro _
    exact (pure_abreast .none).under fun _ => And.left

theorem conditional_abreast (within : size ≤ limit)
    (room : size ≤ bound) (room' : size ≤ bound') :
    (conditional bound nested frames).Abreast track size track.Firm track.Firm congruence.expression
      (conditional bound' nested' frames') := by
  apply current_abreast
  intro word word' alike
  apply Abreast.seq ((expect_abreast together.spares .lparen).under fun _ => And.left)
  apply Abreast.under (inside_abreast together within (Nat.le_refl _) ?_)
  · exact fun _ => track.firm_of_kind _ (by decide)
  intro condition condition' test
  apply Abreast.seq (expect_abreast together.spares .rparen)
  apply Abreast.under (braced_abreast together within room room' ?_)
  · exact fun _ => track.firm_of_kind _ (by decide)
  intro consequence consequence' chosen
  exact (alternative_abreast together within room room').bind fun other other' rejected =>
    pure_abreast (congruence.conditional alike test chosen rejected)

theorem function_abreast (within : size ≤ limit)
    (room : size ≤ bound) (room' : size ≤ bound') :
    (function bound nested frames).Abreast track size track.Firm track.Firm congruence.expression
      (function bound' nested' frames') := by
  apply current_abreast
  intro word word' alike
  apply Abreast.seq ((expect_abreast together.spares .lparen).under fun _ => And.left)
  have listed : (parameters bound (frames - 1)).Abreast track size track.Firm track.Firm
      (List.Forall₂ congruence.name) (parameters bound' (frames' - 1)) :=
    parameters_abreast (together.above 1).spares bound bound' room room'
  apply Abreast.under ((above_abreast 1 together.spares listed).bind ?_)
  · exact fun _ => track.firm_of_kind _ (by decide)
  intro names names' named
  exact braced_abreast together within room room' fun body body' inner =>
    pure_abreast (congruence.function alike named inner)

theorem unary_abreast (within : size ≤ limit)
    (operator : Operator) (sign : operator = .not ∨ operator = .sub) :
    (unary nested frames operator).Abreast track size track.Firm track.Firm congruence.expression
      (unary nested' frames' operator) := by
  apply current_abreast
  intro token token' alike
  exact (inside_abreast together within (by decide) fun operand operand' same =>
    pure_abreast (congruence.unary alike sign same)).under fun _ => And.left

theorem operand_abreast (within : size ≤ limit)
    (room : size ≤ bound) (room' : size ≤ bound') :
    (operand bound nested frames).Abreast track size (fun _ => True) track.Firm congruence.expression
      (operand bound' nested' frames') := by
  apply current_abreast
  intro first first' alike
  have firm (kind : TokenKind) (here : first.kind = kind) (plain : kind ≠ .semicolon) :
      ∀ cursor, True ∧ cursor.current = first → track.Firm cursor :=
    fun cursor same => track.firm_of_kind _ plain (by rw [same.2, here])
  rw [congruence.kind alike]
  split
  · next kind =>
      exact (pure_abreast (congruence.identifier (congruence.named alike kind))).under (firm _ kind (by decide))
  · next kind => exact (integer_abreast together.spares alike kind).under fun _ => And.right
  · next kind => exact (pure_abreast (congruence.string alike kind)).under (firm _ kind (by decide))
  · next kind => exact (pure_abreast (congruence.boolean true alike)).under (firm _ kind (by decide))
  · next kind => exact (pure_abreast (congruence.boolean false alike)).under (firm _ kind (by decide))
  · next kind =>
      exact (unary_abreast together within .not (.inl rfl)).under (firm _ kind (by decide))
  · next kind =>
      exact (unary_abreast together within .sub (.inr rfl)).under (firm _ kind (by decide))
  · next kind =>
      apply (inside_abreast together within (Nat.le_refl _) ?_).under (firm _ kind (by decide))
      exact fun node node' same => closed_abreast together.spares .rparen (by decide) same
  · next kind =>
      exact (conditional_abreast together within room room').under (firm _ kind (by decide))
  · next kind => exact (function_abreast together within room room').under (firm _ kind (by decide))
  · next kind =>
      apply current_abreast
      intro token token' same
      have listed := expressions_abreast (together.above 2) .rbracket (by decide) within room room'
      apply ((above_abreast 2 together.spares listed).under ?_).bind
      · exact fun elements elements' inner => pure_abreast (congruence.array same inner)
      · exact fun cursor here => firm _ kind (by decide) cursor here.1
  · next kind =>
      apply current_abreast
      intro token token' same
      apply ((pairs_abreast together bound bound' within room room').under ?_).bind
      · exact fun pairs pairs' inner => pure_abreast (congruence.map same inner)
      · exact fun cursor here => firm _ kind (by decide) cursor here.1
  · refine fail_abreast ?_ _ alike
    exact together.spares.more

theorem continuation_abreast
    (within : size ≤ limit) (room : size ≤ bound) (room' : size ≤ bound') {left left' : Node}
    (same : congruence.expression left left') :
    (continuation bound nested frames left).Abreast track size track.Firm track.Firm congruence.expression
      (continuation bound' nested' frames' left') := by
  apply current_abreast
  intro token token' alike
  refine Abreast.under (?_ : Abreast track size track.Firm track.Firm _ _ _) fun _ => And.left
  rw [congruence.kind alike]
  split
  · have listed := expressions_abreast (together.above 2) .rparen (by decide) within room room'
    exact (above_abreast 2 together.spares listed).bind fun arguments arguments' inner =>
      pure_abreast (congruence.call alike same inner)
  · apply inside_abreast together within (Nat.le_refl _)
    exact fun position position' inner =>
      closed_abreast together.spares .rbracket (by decide) (congruence.index alike same inner)
  · split
    · next operator sign =>
        exact inside_abreast together within (TokenKind.power_range _).1 fun right right' inner =>
          pure_abreast (congruence.binary alike sign same inner)
    · exact pure_abreast same

theorem extend_abreast {power : Power}
    (low : Power.lowest ≤ power) (fuel fuel' : Nat) {left left' : Node}
    (same : congruence.expression left left') (within : size ≤ limit)
    (room : size ≤ fuel) (room' : size ≤ fuel') (enough : limit ≤ bound) (enough' : limit ≤ bound') :
    (extend bound nested frames power fuel left).Abreast track size track.Firm track.Firm congruence.expression
      (extend bound' nested' frames' power fuel' left') := by
  induction size generalizing fuel fuel' left left' with
  | zero => exact fun _ _ _ few _ => absurd few (Nat.not_lt_zero _)
  | succ size ih =>
      obtain ⟨fuel, rfl⟩ : ∃ less, fuel = less + 1 := ⟨fuel - 1, by omega⟩
      obtain ⟨fuel', rfl⟩ : ∃ less, fuel' = less + 1 := ⟨fuel' - 1, by omega⟩
      apply peek_abreast
      intro token token' alike
      rw [alike]
      apply choice_abreast
      · intro binds
        have tight : Power.lowest < token.kind.power := Nat.lt_of_le_of_lt low binds
        apply advance_into token
        · intro ended
          rw [ended] at tight
          exact absurd tight (by decide)
        · apply Abreast.bind ((continuation_abreast together (by omega) (by omega) (by omega)
            same).under ?_)
          · intro longer longer' alike
            exact ih fuel fuel' alike (by omega) (by omega) (by omega)
          · intro cursor here
            refine .inr ?_
            rw [here]
            intro semicolon
            rw [semicolon] at tight
            exact absurd tight (by decide)
      · intro _
        exact (pure_abreast same).under fun _ => And.left

end Nested

theorem expression_together {limit : Nat} (bound bound' most most' : Nat) (enough : limit ≤ bound)
    (enough' : limit ≤ bound') (spares : track.Spares most most') :
    Together track limit most most' (expression bound most) (expression bound' most') := by
  induction most using Nat.strong_induction_on generalizing most' with
  | _ most ih =>
      refine ⟨spares, fun {size left left' power} within low spares few few' => ?_⟩
      rw [expression_of_limit bound most left few, expression_of_limit bound' most' left' few']
      cases left with
      | zero =>
          rcases spares with rfl | ⟨scarce, -⟩
          · exact exhaust_abreast
          · exact fun _ _ _ _ _ => .scarce scarce
      | succ left =>
          obtain ⟨left', rfl⟩ : ∃ less, left' = less + 1 := ⟨left' - 1, by have := spares.le; omega⟩
          have inner : Together track limit (left + 1 - 3) (left' + 1 - 3) (expression bound left)
              (expression bound' left') := (ih left (by omega) left' (spares.less 1)).above 2
          rw [expression_frames, expression_frames]
          apply above_abreast 3 spares
          apply (room_abreast 1 inner.spares).seq
          apply (operand_abreast inner within (by omega) (by omega)).bind
          intro first first' same
          exact extend_abreast inner low bound bound' same within (by omega) (by omega) enough enough'

theorem statements_abreast {limit size frames frames' : Nat} {nested nested' : Nat → Power → Production Node}
    (together : Together track limit frames frames' nested nested') (onward : track.onward) (braced : track.braced)
    (within : size ≤ limit) (fuel fuel' : Nat) (room : size ≤ fuel) (room' : size ≤ fuel') :
    (statements nested frames fuel).Abreast track size (fun _ => True) (fun _ => True)
      (List.Forall₂ congruence.statement) (statements nested' frames' fuel') := by
  refine loop_abreast ?_ fuel fuel' within room room'
  intro size fuel fuel' within again left right near few _
  rw [statements_succ, statements_succ, congruence.kind (track.current near)]
  split
  · exact .read .nil near few trivial
  · next inside =>
      have first := statement_abreast together within left right near few trivial
      generalize statement nested frames left = one at first ⊢
      generalize statement nested' frames' right = two at first ⊢
      cases first with
      | read same near' few' _ =>
          have rest := again _ _ (track.advance near' (.inl onward))
            (fewer_behind inside few few') trivial
          exact (rest.bind fun nodes nodes' others => pure_abreast (.cons same others)).mono
            (Nat.le_succ size) fun _ holds => holds
      | failed near' few' =>
          rcases track.resumed braced near' with further | ⟨apart, -⟩
          · have rest := again _ _ further (fewer_resumed inside few few') trivial
            exact rest.mono (Nat.le_succ size) fun _ holds => holds
          · exact absurd onward apart
      | tooDeep near' => exact .tooDeep near'
      | scarce scarce => exact .scarce scarce
      | abandoned near' kind malformed => exact .abandoned near' kind malformed
      | parted parts void => exact absurd onward parts.2

/-- A whole list is read abreast of any cursor that is near its beginning. -/
theorem program_abreast (track : Track congruence) (onward : track.onward) (braced : track.braced)
    (limit limit' : Nat) (spares : track.Spares limit limit') (bound fuel : Nat) {tokens : List Token}
    {cursor : Cursor} (near : track.near (.ofTokens tokens) cursor) (enough : tokens.length < bound)
    (room : tokens.length < fuel) :
    (program limit tokens).Abreast track (tokens.length + 1) (fun _ => True)
      (List.Forall₂ congruence.statement) (statements (expression bound limit') (limit' - 2) fuel cursor) :=
  have together := expression_together (tokens.length + 1) bound limit limit' (Nat.le_refl _) enough spares
  statements_abreast (together.above 2) onward braced (Nat.le_refl _) (tokens.length + 1) fuel
    (Nat.le_refl _) room _ _ near (Nat.lt_succ_self _) trivial

end Grammar

end Marmoset
