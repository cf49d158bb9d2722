import Marmoset.Grammar.Phrase
import Marmoset.Text.Search
import Marmoset.Token.Scan

/-!
Reading a whole program. A statement that cannot be read leaves a diagnostic and reading goes on
behind it, so the program holds the statements that could be read.
-/

namespace Marmoset

structure Reading where
  statements : List Node
  diagnostics : List Diagnostic

namespace Reading

def program (reading : Reading) : Node := .program reading.statements

def errors (reading : Reading) : List String := reading.diagnostics.map Diagnostic.text

/-- A message tells that the source ended where more was due, so that more text may mend it. -/
def unfinished (reading : Reading) : Bool :=
  reading.errors.any fun error => Text.holds "got EOF instead".toList error.toList

end Reading

namespace Grammar

def statements (nested : Nat → Power → Production Node) (frames : Nat) :
    Nat → Production (List Node)
  | 0 => Production.exhaust
  | fuel + 1 => fun cursor =>
    if cursor.current.kind = .eof then .read [] cursor
    else
      match statement nested frames cursor with
      | .read first cursor =>
        (statements nested frames fuel cursor.advance).bind fun rest => pure (first :: rest)
      | .failed cursor => statements nested frames fuel cursor.resume.advance
      | .tooDeep cursor => .tooDeep cursor
      | .abandoned error => .abandoned error

theorem statements_succ (nested : Nat → Power → Production Node) (frames fuel : Nat)
    (cursor : Cursor) : statements nested frames (fuel + 1) cursor =
      if cursor.current.kind = .eof then .read [] cursor
      else
        match statement nested frames cursor with
        | .read first cursor =>
          (statements nested frames fuel cursor.advance).bind fun rest => pure (first :: rest)
        | .failed cursor => statements nested frames fuel cursor.resume.advance
        | .tooDeep cursor => .tooDeep cursor
        | .abandoned error => .abandoned error := rfl

/-- The statements of a token stream, on a stack of `limit` frames; two calls lead to the loop. -/
def program (limit : Nat) (tokens : List Token) : Outcome (List Node) :=
  let bound := tokens.length + 1
  statements (expression bound limit) (limit - 2) bound (.ofTokens tokens)

/-- Reads a token stream on a stack of `limit` frames. Where the stack does not suffice, nothing is
kept of the program; a literal that gives no integer leaves no reading at all. -/
def readTokens (limit : Nat) (tokens : List Token) : Except Text.IntegerError Reading :=
  match program limit tokens with
  | .read statements cursor => .ok ⟨statements, cursor.diagnostics⟩
  | .failed cursor => .ok ⟨[], cursor.diagnostics⟩
  | .tooDeep cursor => .ok ⟨[], (cursor.report .nestedTooDeep cursor.current.line).diagnostics⟩
  | .abandoned error => .error error

def read (limit : Nat) (source : String) : Except Text.IntegerError Reading :=
  readTokens limit (Token.scan source)

end Grammar

/-- Frames of the stack, unless the command line asks for another number. -/
def standardLimit : Nat := 1000

end Marmoset
