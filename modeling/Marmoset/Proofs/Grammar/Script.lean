import Marmoset.Grammar

/-!
How the productions are put together. A script shows a production as made of primitive ones, so that what
the primitives keep is proved of all productions by one induction. The stances of a script say where a
phrase begins: there, and nowhere else, a statement is tried and the line of the current token reported.
They also say how many braces are open, more than at the beginning of what is read. Beside each stance
stands a number that bounds the tokens that are left. From it a script tells how many frames a production
needs, if the stack is to be ample: no level takes more frames than a block, which takes nine.
-/

namespace Marmoset

/-- Where a reading stands: a phrase begins on the current token, which may have been looked at, or may be
known not to be the end; or that token may belong to a phrase that is complete, and the token behind it
may have been looked at; or a statement has failed, or a block has ended on its closing brace. As many
braces as `opened` says were opened on the way, before the current token where a phrase begins, else up to
it. Between the statements of a whole source that is not known. -/
inductive Stance
  | fresh (opened : Option Nat)
  | on (token : Token) (opened : Option Nat)
  | inside (opened : Option Nat)
  | held (opened : Option Nat)
  | before (token : Token) (opened : Option Nat)
  | failed (opened : Option Nat)
  | ended

def Stance.begins : Stance → Bool
  | .fresh _ | .on _ _ | .inside _ => true
  | .held _ | .before _ _ | .failed _ | .ended => false

def deeper (opened : Option Nat) : Option Nat := opened.map (· + 1)

/-- A token of a phrase that is neither a brace nor the end. -/
def TokenKind.Plain (kind : TokenKind) : Prop := kind.braces = 0 ∧ kind ≠ .eof

instance (kind : TokenKind) : Decidable kind.Plain := inferInstanceAs (Decidable (_ ∧ _))

theorem TokenKind.plain_of_power {kind : TokenKind} (binds : Power.lowest < kind.power) : kind.Plain := by
  cases kind <;> first | exact absurd binds (by decide) | exact ⟨rfl, by simp⟩

namespace Production

def recover {α : Type} (first : Production Node) (next : Node → Production α)
    (other : Production α) : Production α := fun cursor =>
  match first cursor with
  | .read node reached => next node reached
  | .failed reached => other reached
  | .tooDeep reached => .tooDeep reached
  | .abandoned error => .abandoned error

end Production

open Grammar Production

/-- A script of a production, with the stances where it begins and where it has read something. `base` braces
are open when it begins. Fewer than `left` tokens are left where it begins, the current one among them where
a phrase begins, and fewer than `last` where it has read something. Where the stack is `ample`, no bound is
met. -/
inductive Script (bound : Nat) (ample : Prop) : {α : Type} → (base : Int) → Stance → (left : Nat) →
    Production α → Stance → (last : Nat) → Type 1
  | pure {α : Type} {base : Int} {stance : Stance} {left last : Nat} (value : α) (order : left ≤ last) :
      Script bound ample base stance left (pure value) stance last
  | refuse {α : Type} {base : Int} {token : Token} {opened : Option Nat} {after : Stance} {left last : Nat}
      (problem : Problem) (shallow : problem ≠ .nestedTooDeep) :
      Script bound ample base (.on token opened) left (refuse problem token.line : Production α) after last
  | room {base : Int} {stance : Stance} {left : Nat} (needed frames : Nat)
      (enough : ample → 0 < left → needed ≤ frames) :
      Script bound ample base stance left (room needed frames) stance left
  | exhaust {α : Type} {base : Int} {stance after : Stance} {left last : Nat} (none : ample → left = 0) :
      Script bound ample base stance left (exhaust : Production α) after last
  | abandon {α : Type} {base : Int} {token : Token} {opened : Option Nat} {after : Stance} {left last : Nat}
      {error : Text.IntegerError} (kind : token.kind = .int)
      (malformed : Text.readInteger token.literal = .error error) :
      Script bound ample base (.on token opened) left (abandon error : Production α) after last
  | current {base : Int} {stance : Stance} {left : Nat} :
      Script bound ample base stance left current stance left
  | advance {base : Int} {opened : Option Nat} {left : Nat} :
      Script bound ample base (.held opened) left advance (.fresh opened) left
  | pass {base : Int} {token : Token} {opened : Option Nat} {left : Nat} {kind : TokenKind}
      (here : token.kind = kind) (plain : kind.Plain) :
      Script bound ample base (.before token opened) left advance (.held opened) (left - 1)
  | expect {base : Int} {opened : Option Nat} {left : Nat} (frames : Nat) (kind : TokenKind)
      (plain : kind.Plain) (enough : ample → 0 < left → 3 ≤ frames) :
      Script bound ample base (.held opened) left (expect frames kind) (.held opened) (left - 1)
  | enter {base : Int} {opened : Option Nat} {left : Nat} (frames : Nat)
      (enough : ample → 0 < left → 3 ≤ frames) :
      Script bound ample base (.held opened) left (expect frames .lbrace) (.held (deeper opened)) (left - 1)
  | leave {base : Int} {opened : Option Nat} {left : Nat} (frames : Nat)
      (enough : ample → 0 < left → 3 ≤ frames) :
      Script bound ample base (.held (deeper opened)) left (expect frames .rbrace) (.held opened) (left - 1)
  | accept {base : Int} {opened : Option Nat} {left : Nat} (kind : TokenKind) (plain : kind.Plain) :
      Script bound ample base (.held opened) left (accept kind) (.held opened) left
  /-- A phrase begins, and the token on which it does is kept in mind. -/
  | look {α : Type} {base : Int} {opened : Option Nat} {after : Stance} {left last : Nat}
      {next : Token → Production α}
      (continued : ∀ token, Script bound ample base (.on token opened) left (next token) after last) :
      Script bound ample base (.fresh opened) left (current >>= next) after last
  /-- The next token decides how a phrase goes on. -/
  | peek {α : Type} {base : Int} {opened : Option Nat} {after : Stance} {left last : Nat}
      {next : Token → Production α}
      (continued : ∀ token, Script bound ample base (.before token opened) left (next token) after last) :
      Script bound ample base (.held opened) left (peek >>= next) after last
  /-- The token on which a phrase begins is forgotten, -/
  | again {α : Type} {base : Int} {token : Token} {opened : Option Nat} {after : Stance} {left last : Nat}
      {production : Production α} (onward : Script bound ample base (.fresh opened) left production after last) :
      Script bound ample base (.on token opened) left production after last
  /-- or it belongs to the phrase, -/
  | keep {α : Type} {base : Int} {token : Token} {opened : Option Nat} {after : Stance} {left last : Nat}
      {kind : TokenKind} {production : Production α} (here : token.kind = kind) (plain : kind.Plain)
      (onward : Script bound ample base (.held opened) (left - 1) production after last) :
      Script bound ample base (.on token opened) left production after last
  /-- or it opens a brace. -/
  | opening {α : Type} {base : Int} {token : Token} {opened : Option Nat} {after : Stance} {left last : Nat}
      {production : Production α} (brace : token.kind = .lbrace)
      (onward : Script bound ample base (.held (deeper opened)) (left - 1) production after last) :
      Script bound ample base (.on token opened) left production after last
  /-- The next token is forgotten. -/
  | stay {α : Type} {base : Int} {token : Token} {opened : Option Nat} {after : Stance} {left last : Nat}
      {production : Production α} (onward : Script bound ample base (.held opened) left production after last) :
      Script bound ample base (.before token opened) left production after last
  | bind {α β : Type} {base : Int} {before middle after : Stance} {left between last : Nat}
      {first : Production α} {next : α → Production β}
      (begun : Script bound ample base before left first middle between)
      (continued : ∀ value, Script bound ample base middle between (next value) after last) :
      Script bound ample base before left (first >>= next) after last
  | choice {α : Type} {base : Int} {before after : Stance} {left last : Nat} {condition : Prop}
      [decidable : Decidable condition] {chosen rejected : Production α}
      (positive : condition → Script bound ample base before left chosen after last)
      (negative : ¬ condition → Script bound ample base before left rejected after last) :
      Script bound ample base before left (if condition then chosen else rejected) after last
  /-- The stream ends here, or a statement begins. -/
  | stop {α : Type} {base : Int} {opened : Option Nat} {after : Stance} {left last : Nat}
      {chosen rejected : Production α} (positive : Script bound ample base (.fresh opened) left chosen after last)
      (negative : Script bound ample base (.inside opened) left rejected after last) :
      Script bound ample base (.fresh opened) left
        (fun cursor => if cursor.current.kind = .eof then chosen cursor else rejected cursor) after last
  /-- A block ends here, or it goes on. -/
  | close {α : Type} {base : Int} {left last : Nat} (value : α) {rest : Production α} (order : left ≤ last)
      (otherwise : Script bound ample base (.fresh (some 0)) left rest .ended last) :
      Script bound ample base (.fresh (some 0)) left
        (fun cursor => if cursor.current.kind = .rbrace then .read value cursor else rest cursor) .ended last
  | attempt {α : Type} {base : Int} {limit frames left last : Nat} {opened : Option Nat} {after : Stance}
      {next : Node → Production α} {other : Production α}
      (begun : Script bound ample base (.fresh opened) left (statement (expression bound limit) frames)
        (.held opened) (left - 1))
      (onward : ∀ node, Script bound ample base (.held opened) (left - 1) (next node) after last)
      (otherwise : Script bound ample base (.failed opened) (left - 1) other after last) :
      Script bound ample base (.inside opened) left
        (recover (statement (expression bound limit) frames) next other) after last
  /-- Behind a statement that failed, a source goes on with the next one, -/
  | resume {α : Type} {base : Int} {after : Stance} {left last : Nat} {loop : Production α}
      (onward : Script bound ample base (.fresh none) left loop after last) :
      Script bound ample base (.failed none) left (fun cursor => loop cursor.resume.advance) after last
  /-- and a block too, unless the statement has failed on the brace that closes the block. -/
  | mend {α : Type} {base : Int} {left last : Nat} (value : α) {loop : Production α} (order : left ≤ last)
      (onward : Script bound ample base (.fresh (some 0)) left loop .ended last) :
      Script bound ample base (.failed (some 0)) left
        (fun cursor => if cursor.current.kind = .rbrace ∧ cursor.depth < base then .read value cursor
          else loop cursor.resume.advance) .ended last
  /-- A block begins with as many braces open as there are behind its opening one. -/
  | body {base : Int} {opened : Option Nat} {limit frames left last : Nat}
      (begun : ∀ depth, Script bound ample depth (.fresh (some 0)) left
        (blockStatements (expression bound limit) frames depth bound) .ended last) :
      Script bound ample base (.held (deeper opened)) left (blockBody bound (expression bound limit) frames)
        (.held opened) last

namespace Script

variable {bound limit frames left last : Nat} {ample : Prop} {base : Int} {opened : Option Nat}
  {stance after : Stance}

def ofAbove {α : Type} {production : Nat → Production α} (calls : Nat)
    (enough : ample → 0 < left → calls ≤ frames)
    (begun : Script bound ample base stance left (production (frames - calls)) after last) :
    Script bound ample base stance left (above calls frames production) after last :=
  .bind (.room calls frames enough) fun _ => begun

def ofFail {α : Type} {token : Token} (problem : Problem) (shallow : problem ≠ .nestedTooDeep)
    (enough : ample → 0 < left → 2 ≤ frames) :
    Script bound ample base (.on token opened) left
      (Production.fail frames problem token.line : Production α) after last :=
  .bind (.room 2 frames enough) fun _ => .refuse problem shallow

def ofInteger (token : Token) (kind : token.kind = .int) (enough : ample → 0 < left → 2 ≤ frames) :
    Script bound ample base (.on token opened) left (integer frames token) (.held opened) (left - 1) := by
  unfold integer
  split
  · next malformed => exact .abandon kind malformed
  · exact .choice (fun _ => ofFail _ (by simp) enough) fun _ => .keep kind (by decide) (.pure _ (Nat.le_refl _))

def ofMoreParameters : ∀ fuel {left last}, (ample → 9 * left ≤ frames ∧ left ≤ fuel) → left ≤ last →
    Script bound ample base (.held opened) left (moreParameters frames fuel) (.held opened) last
  | 0, _, _, spare, _ => .exhaust fun a => Nat.le_zero.mp (spare a).2
  | fuel + 1, _, _, spare, order => .peek fun _ => .choice
    (fun comma => .bind (.pass comma (by decide)) fun _ =>
      .bind (.expect frames .ident (by decide) fun a _ => by have := spare a; omega) fun _ =>
      .bind .current fun _ =>
      .bind (ofMoreParameters fuel (fun a => by have := spare a; omega) (Nat.le_refl _)) fun _ =>
      .pure _ (by omega))
    (fun _ => .stay (.bind (.expect frames .rparen (by decide) fun a _ => by have := spare a; omega)
      fun _ => .pure _ (by omega)))

def ofParameters (spare : ample → 9 * left ≤ frames ∧ left ≤ bound) (order : left ≤ last) :
    Script bound ample base (.held opened) left (parameters bound frames) (.held opened) last :=
  .bind (.room 1 frames fun a _ => by have := spare a; omega) fun _ => .peek fun _ => .choice
    (fun closed => .bind (.pass closed (by decide)) fun _ => .pure _ (by omega))
    (fun _ => .stay
      (.bind (.expect frames .ident (by decide) fun a _ => by have := spare a; omega) fun _ =>
      .bind .current fun _ =>
      .bind (ofMoreParameters bound (fun a => by have := spare a; omega) (Nat.le_refl _)) fun _ =>
      .pure _ (by omega)))

def ofOthers {loop : Production (List Node)} {least : Nat}
    (again : Script bound ample base (.fresh opened) left loop after least) (order : least ≤ last)
    (first : Node) : Script bound ample base (.held opened) left
      (fun cursor => (loop cursor.advance).bind fun rest => Pure.pure (first :: rest)) after last :=
  show Script bound ample base (.held opened) left
      (Production.advance >>= fun _ => loop >>= fun rest => Pure.pure (first :: rest)) after last from
    .bind .advance fun _ => .bind again fun _ => .pure _ order

section Nested

variable (nested : ∀ {base opened left} frames {power}, Power.lowest ≤ power →
  (ample → 9 * left ≤ frames - 3 ∧ left ≤ limit ∧ left ≤ bound) →
  Script bound ample base (.fresh opened) left (expression bound limit frames power) (.held opened) (left - 1))
include nested

def ofItems (close : TokenKind) (plain : close.Plain) : ∀ fuel {left last},
    (ample → 9 * left ≤ frames - 3 ∧ left ≤ limit ∧ left ≤ bound ∧ left ≤ fuel) → left ≤ last →
    Script bound ample base (.fresh opened) left (items (expression bound limit) frames close fuel)
      (.held opened) last
  | 0, _, _, spare, _ => .exhaust fun a => Nat.le_zero.mp (spare a).2.2.2
  | fuel + 1, _, _, spare, order =>
    .bind (nested frames (Nat.le_refl _) fun a => by have := spare a; omega) fun _ =>
    .peek fun _ => .choice
      (fun comma => .bind (.pass comma (by decide)) fun _ => .bind .advance fun _ =>
        .bind (ofItems close plain fuel (fun a => by have := spare a; omega) (Nat.le_refl _)) fun _ =>
        .pure _ (by omega))
      (fun _ => .stay (.bind (.expect frames close plain fun a _ => by have := spare a; omega)
        fun _ => .pure _ (by omega)))

def ofExpressions (close : TokenKind) (plain : close.Plain)
    (spare : ample → 9 * left ≤ frames - 3 ∧ left ≤ limit ∧ left ≤ bound) (order : left ≤ last) :
    Script bound ample base (.held opened) left (expressions bound (expression bound limit) frames close)
      (.held opened) last :=
  .bind (.room 1 frames fun a _ => by have := spare a; omega) fun _ => .peek fun _ => .choice
    (fun closed => .bind (.pass closed plain) fun _ => .pure _ (by omega))
    (fun _ => .stay (.bind .advance fun _ =>
      ofItems nested close plain bound (fun a => by have := spare a; omega) order))

def ofPairs : ∀ fuel {left last},
    (ample → 9 * left ≤ frames - 3 ∧ left ≤ limit ∧ left ≤ bound ∧ left ≤ fuel) → left ≤ last →
    Script bound ample base (.held (deeper opened)) left (pairs (expression bound limit) frames fuel)
      (.held opened) last
  | 0, _, _, spare, _ => .exhaust fun a => Nat.le_zero.mp (spare a).2.2.2
  | fuel + 1, left, last, spare, order =>
    have again : left - 1 - 1 - 1 ≤ left - 1 ∧ left - 1 - 1 - 1 - 1 ≤ left - 1 := by omega
    .peek fun _ => .choice
      (fun _ => .stay (.bind (.leave frames fun a _ => by have := spare a; omega) fun _ =>
        .pure _ (by omega)))
      (fun _ => .stay (.bind .advance fun _ =>
        .bind (nested frames (Nat.le_refl _) fun a => by have := spare a; omega) fun _ =>
        .bind (.expect frames .colon (by decide) fun a _ => by have := spare a; omega) fun _ =>
        .bind .advance fun _ =>
        .bind (nested frames (Nat.le_refl _) fun a => by have := spare a; omega) fun _ =>
        .peek fun _ => .choice
          (fun _ => .stay
            (.bind (ofPairs fuel (fun a => by have := spare a; omega) again.1) fun _ =>
            .pure _ (by omega)))
          (fun _ => .stay
            (.bind (.expect frames .comma (by decide) fun a _ => by have := spare a; omega) fun _ =>
            .bind (ofPairs fuel (fun a => by have := spare a; omega) again.2) fun _ =>
            .pure _ (by omega)))))

def ofEnding (spare : ample → 9 * left ≤ frames - 3 ∧ left ≤ limit ∧ left ≤ bound) (order : left - 1 ≤ last)
    (make : Node → Node) :
    Script bound ample base (.fresh opened) left (expression bound limit frames .lowest >>= fun value =>
      Production.accept .semicolon >>= fun _ => Pure.pure (make value)) (.held opened) last :=
  .bind (nested frames (Nat.le_refl _) spare) fun _ => .bind (.accept .semicolon (by decide)) fun _ =>
    .pure _ order

def ofStatement (spare : ample → 9 * left ≤ frames - 7 ∧ left ≤ limit ∧ left ≤ bound) :
    Script bound ample base (.fresh opened) left (statement (expression bound limit) frames) (.held opened)
      (left - 1) :=
  ofAbove 4 (fun a _ => by have := spare a; omega) (.look fun token => by
    split
    · next word =>
        exact .keep word (by decide) (.bind .current fun _ =>
          .bind (.expect _ .ident (by decide) fun a _ => by have := spare a; omega) fun _ =>
          .bind .current fun _ =>
          .bind (.expect _ .assign (by decide) fun a _ => by have := spare a; omega) fun _ =>
          .bind .advance fun _ =>
          ofEnding nested (fun a => by have := spare a; omega) (by omega) _)
    · next word =>
        exact .keep word (by decide) (.bind (.room 1 _ fun a _ => by have := spare a; omega) fun _ =>
          .bind .current fun _ => .bind .advance fun _ =>
          ofEnding nested (fun a => by have := spare a; omega) (by omega) _)
    · exact .again (.bind .current fun _ =>
        ofEnding nested (fun a => by have := spare a; omega) (by omega) _))

def ofBlockStatements (depth : Int) : ∀ fuel {left last},
    (ample → 9 * left ≤ frames - 7 ∧ left ≤ limit ∧ left ≤ bound ∧ left ≤ fuel) → left ≤ last →
    Script bound ample depth (.fresh (some 0)) left
      (blockStatements (expression bound limit) frames depth fuel) .ended last
  | 0, _, _, spare, _ => .exhaust fun a => Nat.le_zero.mp (spare a).2.2.2
  | fuel + 1, left, last, spare, order =>
    have less : left - 1 ≤ last := by omega
    .close [] order (.stop
      (.look fun _ => ofFail _ (by simp) fun a _ => by have := spare a; omega)
      (.attempt (ofStatement nested fun a => by have := spare a; omega)
        (ofOthers (ofBlockStatements depth fuel (fun a => by have := spare a; omega) less)
          (Nat.le_refl _))
        (.mend [] less (ofBlockStatements depth fuel (fun a => by have := spare a; omega) less))))

def ofBlock (spare : ample → 9 * left ≤ frames - 9 ∧ left ≤ limit ∧ left ≤ bound) (order : left ≤ last) :
    Script bound ample base (.held (deeper opened)) left (block bound (expression bound limit) frames)
      (.held opened) last :=
  ofAbove 2 (fun a _ => by have := spare a; omega)
    (.bind (.room 1 _ fun a _ => by have := spare a; omega) fun _ => .body fun depth =>
      ofBlockStatements nested depth bound (fun a => by have := spare a; omega) order)

def ofBraced {α : Type} {next : Node → Production α}
    (spare : ample → 9 * left ≤ frames - 9 ∧ left ≤ limit ∧ left ≤ bound)
    (continued : ∀ node, Script bound ample base (.held opened) (left - 1) (next node) (.held opened) last) :
    Script bound ample base (.held opened) left (Production.expect frames .lbrace >>= fun _ =>
      block bound (expression bound limit) frames >>= next) (.held opened) last :=
  .bind (.enter frames fun a _ => by have := spare a; omega) fun _ =>
    .bind (ofBlock nested (fun a => by have := spare a; omega) (Nat.le_refl _)) continued

def ofAlternative (spare : ample → 9 * left ≤ frames - 9 ∧ left ≤ limit ∧ left ≤ bound)
    (order : left ≤ last) :
    Script bound ample base (.held opened) left (alternative bound (expression bound limit) frames)
      (.held opened) last :=
  .peek fun _ => .choice
    (fun word => .bind (.pass word (by decide)) fun _ =>
      ofBraced nested (fun a => by have := spare a; omega) fun _ => .pure _ (by omega))
    (fun _ => .stay (.pure _ order))

def ofConditional (spare : ample → 9 * left ≤ frames - 9 ∧ left ≤ limit ∧ left ≤ bound)
    (order : left ≤ last) :
    Script bound ample base (.held opened) left (conditional bound (expression bound limit) frames)
      (.held opened) last :=
  .bind .current fun _ =>
    .bind (.expect frames .lparen (by decide) fun a _ => by have := spare a; omega) fun _ =>
    .bind .advance fun _ =>
    .bind (nested frames (Nat.le_refl _) fun a => by have := spare a; omega) fun _ =>
    .bind (.expect frames .rparen (by decide) fun a _ => by have := spare a; omega) fun _ =>
    ofBraced nested (fun a => by have := spare a; omega) fun _ =>
      .bind (ofAlternative nested (fun a => by have := spare a; omega) (Nat.le_refl _)) fun _ =>
      .pure _ (by omega)

def ofFunction (spare : ample → 9 * left ≤ frames - 9 ∧ left ≤ limit ∧ left ≤ bound) (order : left ≤ last) :
    Script bound ample base (.held opened) left (function bound (expression bound limit) frames)
      (.held opened) last :=
  .bind .current fun _ =>
    .bind (.expect frames .lparen (by decide) fun a _ => by have := spare a; omega) fun _ =>
    .bind (ofAbove 1 (fun a _ => by have := spare a; omega)
      (ofParameters (fun a => by have := spare a; omega) (Nat.le_refl _))) fun _ =>
    ofBraced nested (fun a => by have := spare a; omega) fun _ => .pure _ (by omega)

def ofInside {α : Type} {next : Node → Production α} {power : Power} (low : Power.lowest ≤ power)
    (spare : ample → 9 * left ≤ frames - 3 ∧ left ≤ limit ∧ left ≤ bound)
    (continued : ∀ node, Script bound ample base (.held opened) (left - 1) (next node) (.held opened) last) :
    Script bound ample base (.held opened) left
      (Production.advance >>= fun _ => expression bound limit frames power >>= next) (.held opened) last :=
  .bind .advance fun _ => .bind (nested frames low spare) continued

def ofUnary (operator : Operator) (spare : ample → 9 * left ≤ frames - 3 ∧ left ≤ limit ∧ left ≤ bound)
    (order : left ≤ last) :
    Script bound ample base (.held opened) left (unary (expression bound limit) frames operator)
      (.held opened) last :=
  .bind .current fun _ => ofInside nested (by decide) spare fun _ => .pure _ (by omega)

def ofOperand (spare : ample → 9 * left ≤ frames ∧ left ≤ limit + 1 ∧ left ≤ bound) :
    Script bound ample base (.fresh opened) left (operand bound (expression bound limit) frames)
      (.held opened) (left - 1) :=
  have order : left - 1 ≤ left - 1 := Nat.le_refl _
  have inner : ample → 9 * (left - 1) ≤ frames - 9 ∧ left - 1 ≤ limit ∧ left - 1 ≤ bound :=
    fun a => by have := spare a; omega
  have within : ample → 9 * (left - 1) ≤ frames - 3 ∧ left - 1 ≤ limit ∧ left - 1 ≤ bound :=
    fun a => by have := inner a; omega
  .look fun token => by
    split
    · next kind => exact .keep kind (by decide) (.pure _ order)
    · next kind => exact ofInteger token kind fun a _ => by have := spare a; omega
    · next kind => exact .keep kind (by decide) (.pure _ order)
    · next kind => exact .keep kind (by decide) (.pure _ order)
    · next kind => exact .keep kind (by decide) (.pure _ order)
    · next kind => exact .keep kind (by decide) (ofUnary nested .not within order)
    · next kind => exact .keep kind (by decide) (ofUnary nested .sub within order)
    · next kind =>
        exact .keep kind (by decide) (ofInside nested (Nat.le_refl _) within fun _ =>
          .bind (.expect frames .rparen (by decide) fun a _ => by have := spare a; omega) fun _ =>
          .pure _ (by omega))
    · next kind => exact .keep kind (by decide) (ofConditional nested inner order)
    · next kind => exact .keep kind (by decide) (ofFunction nested inner order)
    · next kind =>
        exact .keep kind (by decide) (.bind .current fun _ =>
          .bind (ofAbove 2 (fun a _ => by have := spare a; omega) (ofExpressions nested .rbracket
            (by decide) (fun a => by have := inner a; omega) (Nat.le_refl _))) fun _ =>
          .pure _ order)
    · next kind =>
        exact .opening kind (.bind .current fun _ =>
          .bind (ofPairs nested bound (fun a => by have := within a; omega) (Nat.le_refl _)) fun _ =>
          .pure _ order)
    · exact ofFail _ (by simp) fun a _ => by have := spare a; omega

def ofContinuation (first : Node) (spare : ample → 9 * left ≤ frames - 5 ∧ left ≤ limit ∧ left ≤ bound)
    (order : left ≤ last) :
    Script bound ample base (.held opened) left
      (continuation bound (expression bound limit) frames first) (.held opened) last :=
  have within : ample → 9 * left ≤ frames - 3 ∧ left ≤ limit ∧ left ≤ bound :=
    fun a => by have := spare a; omega
  .bind .current fun token => by
    split
    · exact .bind (ofAbove 2 (fun a _ => by have := spare a; omega) (ofExpressions nested .rparen
        (by decide) (fun a => by have := spare a; omega) (Nat.le_refl _))) fun _ => .pure _ order
    · exact ofInside nested (Nat.le_refl _) within fun _ =>
        .bind (.expect frames .rbracket (by decide) fun a _ => by have := spare a; omega) fun _ =>
        .pure _ (by omega)
    · split
      · exact ofInside nested (TokenKind.power_range _).1 within fun _ => .pure _ (by omega)
      · exact .pure _ order

def ofExtend {power : Power} (low : Power.lowest ≤ power) : ∀ (fuel : Nat) {left last} (first : Node),
    (ample → 9 * (left - 1) ≤ frames - 5 ∧ left ≤ limit + 1 ∧ left ≤ bound ∧ left ≤ fuel) → left ≤ last →
    Script bound ample base (.held opened) left
      (extend bound (expression bound limit) frames power fuel first) (.held opened) last
  | 0, _, _, _, spare, _ => .exhaust fun a => Nat.le_zero.mp (spare a).2.2.2
  | fuel + 1, _, _, first, spare, order => .peek fun _ => .choice
    (fun binds => .bind (.pass rfl (TokenKind.plain_of_power (Nat.lt_of_le_of_lt low binds))) fun _ =>
      .bind (ofContinuation nested first (fun a => by have := spare a; omega) (Nat.le_refl _))
        fun longer => ofExtend low fuel longer (fun a => by have := spare a; omega) (by omega))
    (fun _ => .stay (.pure _ order))

def ofStatements : ∀ fuel {left last},
    (ample → 9 * left ≤ frames - 7 ∧ left ≤ limit ∧ left ≤ bound ∧ left ≤ fuel) → left ≤ last →
    Script bound ample base (.fresh none) left (statements (expression bound limit) frames fuel)
      (.fresh none) last
  | 0, _, _, spare, _ => .exhaust fun a => Nat.le_zero.mp (spare a).2.2.2
  | fuel + 1, left, last, spare, order =>
    have less : left - 1 ≤ last := by omega
    .stop (.pure _ order)
      (.attempt (ofStatement nested fun a => by have := spare a; omega)
        (ofOthers (ofStatements fuel (fun a => by have := spare a; omega) less) (Nat.le_refl _))
        (.resume (ofStatements fuel (fun a => by have := spare a; omega) less)))

end Nested

def ofExpression (bound : Nat) (ample : Prop) : ∀ limit {base opened left} frames {power},
    Power.lowest ≤ power → (ample → 9 * left ≤ frames - 3 ∧ left ≤ limit ∧ left ≤ bound) →
    Script bound ample base (.fresh opened) left (expression bound limit frames power) (.held opened)
      (left - 1)
  | 0, _, _, _, _, _, _, spare => .exhaust fun a => Nat.le_zero.mp (spare a).2.1
  | limit + 1, _, _, _, frames, _, low, spare => .choice
    (fun less => ofExpression bound ample limit frames low fun a => by have := spare a; omega)
    (fun _ => ofAbove 3 (fun a _ => by have := spare a; omega)
      (.bind (.room 1 _ fun a _ => by have := spare a; omega) fun _ =>
      .bind (ofOperand (ofExpression bound ample limit) fun a => by have := spare a; omega)
        fun first => ofExtend (ofExpression bound ample limit) low bound first
          (fun a => by have := spare a; omega) (Nat.le_refl _)))

/-- The script of a whole source. The stack is ample that has nine frames for each token, nine for the end
and nine more. -/
def ofProgram (ample : Prop) (limit : Nat) (tokens : List Token)
    (spare : ample → 9 * tokens.length + 18 ≤ limit) :
    Script (tokens.length + 1) ample 0 (.fresh none) (tokens.length + 1)
      (statements (expression (tokens.length + 1) limit) (limit - 2) (tokens.length + 1)) (.fresh none)
      (tokens.length + 1) :=
  ofStatements (ofExpression _ ample _) _ (fun a => by have := spare a; omega) (Nat.le_refl _)

end Script

end Marmoset
