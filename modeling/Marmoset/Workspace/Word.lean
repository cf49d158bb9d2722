import Marmoset.Text.Line
import Marmoset.Token.Scan

/-!
The word under a cursor. A position counts the units of UTF-16 on its line, of which a character
beyond the basic plane has two.
-/

namespace Marmoset.Word

def units (c : Char) : Nat := if c.toNat > 0xffff then 2 else 1

def unitCount (text : List Char) : Nat := text.foldl (fun count c => count + units c) 0

/-- How many characters it takes to reach a number of units; a position inside a character lies
behind it. -/
def charactersFor : Nat → List Char → Nat
  | _, [] => 0
  | wanted, c :: rest => if wanted = 0 then 0 else charactersFor (wanted - units c) rest + 1

def counted (line : Text.Line) : List Char :=
  if line.ending = ['\r', '\n'] then line.body ++ ['\n'] else line.whole

/-- The number of characters before a position on a line; a position beyond the line is moved to
its last unit. -/
def columnOf (line : Text.Line) (position : Nat) : Nat :=
  let text := counted line
  let length := unitCount text
  charactersFor (if position > length then length - 1 else position) text

/-- The run of word characters at the end of a text; a line feed at the very end does not count. -/
def runBefore (text : List Char) : List Char :=
  let backwards := match text.reverse with
    | '\n' :: rest => rest
    | whole => whole
  (backwards.takeWhile isWordPart).reverse

def onLine (line : Text.Line) (position : Nat) : String :=
  let column := columnOf line position
  let before := line.whole.take column
  let after := line.whole.drop column
  String.ofList (runBefore before ++ after.takeWhile isWordPart)

def under (text : String) (line position : Nat) : String :=
  match (Text.lines text)[line]? with
  | none => ""
  | some line => onLine line position

end Marmoset.Word
