import Marmoset.Files
import Marmoset.Table
import Marmoset.Text.Integer
import Marmoset.Workspace.Uri
import Marmoset.Workspace.Word

/-!
What a server takes from the library beneath it: the documents that are open, the texts of documents, the
positions in them, and the word under a position.
-/

namespace Marmoset

namespace Server

inductive PositionError
  | line (value : Int)
  | character (value : Int)
  deriving DecidableEq, Repr

def positionMax : Int := 0x7fffffff

def PositionError.message (error : PositionError) : String :=
  let (part, value) := match error with
    | line value => ("line", value)
    | character value => ("character", value)
  "Position." ++ part ++ " should be in range [0:" ++ toString positionMax ++ "], but was " ++
    toString value ++ "."

inductive Refusal
  | badPosition (error : PositionError)
  | badInteger (error : Text.IntegerError)
  | badHost (error : HostError)
  /-- A document is to change that is not open. -/
  | notOpen (uri : String)
  | unreadable (error : TextError)

def Refusal.message : Refusal → String
  | badPosition error => error.message
  | badInteger error => error.message
  | badHost error => error.message
  | notOpen uri => Text.quoted uri
  | unreadable error => error.message

end Server

open Server

structure Library where
  /-- What is known of the documents that are open. -/
  Documents : Type
  noDocuments : Documents
  opened : Documents → (uri text : String) → Except Refusal Documents
  changed : Documents → (uri text : String) → Except Refusal Documents
  textOf : Documents → FileTree → (uri : String) → Except Refusal String
  position : (line character : Int) → Except Refusal (Nat × Nat)
  word : (text : String) → (line character : Nat) → String
  /-- A document that was opened or changed has the text that it was given. -/
  textOf_opened : ∀ {documents after : Documents} {uri text : String},
    opened documents uri text = .ok after → ∀ tree, textOf after tree uri = .ok text
  textOf_changed : ∀ {documents after : Documents} {uri text : String},
    changed documents uri text = .ok after → ∀ tree, textOf after tree uri = .ok text

namespace Library

/-- A position, whose line is checked before its character. -/
def checkedPosition (line character : Int) : Except Refusal (Nat × Nat) :=
  if line < 0 ∨ positionMax < line then .error (.badPosition (.line line))
  else if character < 0 ∨ positionMax < character then .error (.badPosition (.character character))
  else .ok (line.toNat, character.toNat)

def textOf? (texts : List (String × String)) (tree : FileTree) (uri : String) : Except Refusal String :=
  match Table.find? uri texts with
  | some text => .ok text
  | none =>
    match Uri.path uri with
    | .error error => .error (.badHost error)
    | .ok path =>
      match tree.readText path with
      | .error error => .error (.unreadable error)
      | .ok text => .ok text

theorem textOf?_write (texts : List (String × String)) (tree : FileTree) (uri text : String) :
    textOf? (Table.write uri text texts) tree uri = .ok text := by
  rw [textOf?, Table.find?_write, if_pos rfl]

/-- The library that keeps the texts of the open documents in a table by their addresses. -/
def standard : Library where
  Documents := List (String × String)
  noDocuments := []
  opened texts uri text :=
    match Uri.path uri with
    | .error error => .error (.badHost error)
    | .ok _ => .ok (Table.write uri text texts)
  changed texts uri text :=
    if (Table.find? uri texts).isSome then .ok (Table.write uri text texts) else .error (.notOpen uri)
  textOf := textOf?
  position := checkedPosition
  word := Word.under
  textOf_opened {texts after uri text} opened tree := by
    cases place : Uri.path uri with
    | error error =>
        rw [place] at opened
        cases opened
    | ok path =>
        rw [place] at opened
        cases opened
        exact textOf?_write texts tree uri text
  textOf_changed {texts after uri text} changed tree := by
    split at changed
    · cases changed
      exact textOf?_write texts tree uri text
    · cases changed

end Library

end Marmoset
