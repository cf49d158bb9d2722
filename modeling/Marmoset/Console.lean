import Marmoset.Session
import Marmoset.Text.Blank
import Marmoset.Text.Quote

/-!
The console: lines are gathered until they form a source, which is then run in the session.
-/

namespace Marmoset

def Token.shown (token : Token) : String :=
  "Token(" ++ token.kind.name ++ ", " ++ Text.quoted token.literal ++ ", line=" ++
    toString token.line ++ ")"

def debugText (source : String) (program : Node) : String :=
  "\nTokens:\n\n[" ++ ", ".intercalate ((Token.scan source).map Token.shown) ++ "]\n\nAST:\n\n" ++
    program.canonical ++ "\n \n"

def errorsText (errors : List String) : String :=
  "parser errors:\n" ++ String.join (errors.map fun error => "\t" ++ error ++ "\n")

def resultText (value : Value) : String :=
  match value with
  | .null => ""
  | value => value.inspect ++ "\n"

def Session.present (session : Session) (debug : Bool) (source : String) (program : Node) :
    Except Failure (Value × String × Session) :=
  let (result, session) := session.evaluate program
  let (printed, session) := session.takePrinted
  match result with
  | .error failure => .error failure
  | .ok value =>
    let shown := if debug then debugText source program else ""
    .ok (value, shown ++ printed ++ resultText value, session)

/-- What the console is given: a line, an interruption, or the end of the input. -/
inductive Entry
  | line (text : String)
  | interrupt
  | finish
  deriving DecidableEq, Repr

structure Console where
  session : Session
  debug : Bool
  /-- The lines of a source that is not finished yet. -/
  pending : List String

/-- What one entry leads to: the text printed, and the console afterwards, or none if it stops. -/
structure Turn where
  out : String
  next : Option Console

namespace Console

def banner : String := "Monkey Interpreter - REPL\nType `exit` or `quit` to leave.\n"

def start (session : Session) (debug : Bool) : Console := ⟨session, debug, []⟩

def prompt (console : Console) : String :=
  if console.pending.isEmpty then ">> " else ".. "

def leaves (line : String) : Bool :=
  Text.trim line = "exit" || Text.trim line = "quit"

/-- Runs the lines gathered, unless the last one is not blank and more lines may mend the source. -/
def submit (console : Console) (line : String) : Except Failure Turn :=
  let pending := console.pending ++ [line]
  let source := "\n".intercalate pending
  match Grammar.read console.session.limit source with
  | .error error => .error (.badInteger error)
  | .ok reading =>
    if reading.unfinished && Text.trim line ≠ "" then .ok ⟨"", some { console with pending }⟩
    else if !reading.diagnostics.isEmpty then
      .ok ⟨errorsText reading.errors, some { console with pending := [] }⟩
    else
      match console.session.present console.debug source reading.program with
      | .error failure => .error failure
      | .ok (_, out, session) => .ok ⟨out, some { console with pending := [], session }⟩

def feed (console : Console) (entry : Entry) : Except Failure Turn :=
  match entry with
  | .interrupt => .ok ⟨"\nInterrupted.\n", none⟩
  | .finish => .ok ⟨"\n", none⟩
  | .line text =>
    if console.pending.isEmpty && leaves text then .ok ⟨"", none⟩ else console.submit text

/-- What was shown: the prompts with the text printed behind each, and the entries left unread. -/
structure Transcript where
  turns : List (String × String)
  unread : Nat

/-- The whole exchange over some entries, behind which the input ends. -/
def exchange : Console → List Entry → Except Failure Transcript
  | console, [] => do
    let turn ← console.feed .finish
    return ⟨[(console.prompt, turn.out)], 0⟩
  | console, entry :: entries => do
    let turn ← console.feed entry
    match turn.next with
    | none => return ⟨[(console.prompt, turn.out)], entries.length⟩
    | some next =>
      let rest ← exchange next entries
      return ⟨(console.prompt, turn.out) :: rest.turns, rest.unread⟩

end Console

end Marmoset
