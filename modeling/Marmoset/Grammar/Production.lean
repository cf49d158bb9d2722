import Marmoset.Grammar.Cursor
import Marmoset.Text.Integer

/-!
Productions: what reading a phrase at a cursor may come to, and how productions follow one another.
Reading is done by functions that call one another, and every call takes a frame of the stack: where
a production takes `frames`, it is run by a function above which that many frames are left.
-/

namespace Marmoset

inductive Outcome (α : Type)
  /-- The phrase was read. -/
  | read (value : α) (cursor : Cursor)
  /-- It was not, and a diagnostic says why. -/
  | failed (cursor : Cursor)
  /-- Phrases nest deeper than the stack allows. -/
  | tooDeep (cursor : Cursor)
  /-- A literal gives no integer, and reading ends for good. -/
  | abandoned (error : Text.IntegerError)

/-- Reads a phrase whose first token is the current one, and stops on its last token. -/
def Production (α : Type) := Cursor → Outcome α

namespace Outcome

def bind {α β : Type} (outcome : Outcome α) (next : α → Production β) : Outcome β :=
  match outcome with
  | read value cursor => next value cursor
  | failed cursor => failed cursor
  | tooDeep cursor => tooDeep cursor
  | abandoned error => abandoned error

@[simp] theorem read_bind {α β : Type} (value : α) (cursor : Cursor) (next : α → Production β) :
    (read value cursor).bind next = next value cursor := rfl

@[simp] theorem failed_bind {α β : Type} (cursor : Cursor) (next : α → Production β) :
    (failed cursor : Outcome α).bind next = failed cursor := rfl

@[simp] theorem tooDeep_bind {α β : Type} (cursor : Cursor) (next : α → Production β) :
    (tooDeep cursor : Outcome α).bind next = tooDeep cursor := rfl

@[simp] theorem abandoned_bind {α β : Type} (error : Text.IntegerError)
    (next : α → Production β) : (abandoned error : Outcome α).bind next = abandoned error := rfl

end Outcome

namespace Production

instance : Monad Production where
  pure value := fun cursor => .read value cursor
  bind production next := fun cursor => (production cursor).bind next

@[simp] theorem pure_apply {α : Type} (value : α) (cursor : Cursor) :
    (pure value : Production α) cursor = .read value cursor := rfl

@[simp] theorem bind_apply {α β : Type} (production : Production α) (next : α → Production β)
    (cursor : Cursor) : (production >>= next) cursor = (production cursor).bind next := rfl

def current : Production Token := fun cursor => .read cursor.current cursor

def peek : Production Token := fun cursor => .read cursor.peek cursor

def advance : Production Unit := fun cursor => .read () cursor.advance

def exhaust {α : Type} : Production α := fun cursor => .tooDeep cursor

def abandon {α : Type} (error : Text.IntegerError) : Production α := fun _ => .abandoned error

def room (needed frames : Nat) : Production Unit := fun cursor =>
  if needed ≤ frames then .read () cursor else .tooDeep cursor

def above {α : Type} (calls frames : Nat) (production : Nat → Production α) : Production α := do
  room calls frames
  production (frames - calls)

def refuse {α : Type} (problem : Problem) (line : Int) : Production α := fun cursor =>
  .failed (cursor.report problem line)

/-- Refuses a phrase: one call files the diagnostic, and another one makes it. -/
def fail {α : Type} (frames : Nat) (problem : Problem) (line : Int) : Production α := do
  room 2 frames
  refuse problem line

def expect (frames : Nat) (kind : TokenKind) : Production Unit := do
  room 2 frames
  let next ← peek
  if next.kind = kind then advance
  else fail (frames - 1) (.expected kind next.kind) next.line

def accept (kind : TokenKind) : Production Unit := fun cursor =>
  if cursor.peek.kind = kind then .read () cursor.advance else .read () cursor

end Production

end Marmoset
