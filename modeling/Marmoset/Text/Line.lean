/-!
Lines of a text. An editor breaks lines at more characters than the language does, and a carriage
return with a line feed behind it is one break.
-/

namespace Marmoset.Text

def isLineBreak (c : Char) : Bool :=
  let n := c.toNat
  (0x0a ≤ n && n ≤ 0x0d) || (0x1c ≤ n && n ≤ 0x1e) || n = 0x85 || n = 0x2028 || n = 0x2029

/-- A line and the break that ends it; only the last line may have none. -/
structure Line where
  body : List Char
  ending : List Char
  deriving DecidableEq, Repr

def Line.whole (line : Line) : List Char := line.body ++ line.ending

/-- Lines of a text behind the part `body` of a line. A break at the very end starts no line. -/
def linesFrom (body : List Char) : List Char → List Line
  | [] => if body.isEmpty then [] else [⟨body.reverse, []⟩]
  | '\r' :: '\n' :: rest => ⟨body.reverse, ['\r', '\n']⟩ :: linesFrom [] rest
  | c :: rest =>
    if isLineBreak c then ⟨body.reverse, [c]⟩ :: linesFrom [] rest
    else linesFrom (c :: body) rest

def lines (text : String) : List Line := linesFrom [] text.toList

/-- Every carriage return, with a line feed behind it or alone, as one line feed. -/
def unifyBreaksChars : List Char → List Char
  | [] => []
  | '\r' :: '\n' :: rest => '\n' :: unifyBreaksChars rest
  | c :: rest => (if c = '\r' then '\n' else c) :: unifyBreaksChars rest

def unifyBreaks (text : String) : String := String.ofList (unifyBreaksChars text.toList)

end Marmoset.Text
