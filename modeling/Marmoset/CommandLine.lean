import Marmoset.CommandLine.Options
import Marmoset.Console
import Marmoset.Files

/-!
The command line: with a script it runs the script, without one it opens the console.
-/

namespace Marmoset

namespace CommandLine

def usage : String := "usage: monkey [-h] [--debug] [--recursion-limit N] [script]\n"

def help : String :=
  usage ++ "\n" ++
  "Monkey Language Interpreter. Run with no script to enter the REPL.\n" ++
  "\n" ++
  "positional arguments:\n" ++
  "  script               Path to a Monkey source file to execute.\n" ++
  "\n" ++
  "options:\n" ++
  "  -h, --help           show this help message and exit\n" ++
  "  --debug              Print tokens and AST before evaluating (also enabled by\n" ++
  "                       MONKEYDEBUG).\n" ++
  "  --recursion-limit N  Raise the host recursion limit for deeply recursive\n" ++
  "                       programs.\n"

def complaint (error : Options.UsageError) : String :=
  usage ++ "monkey: error: " ++ error.message ++ "\n"

/-- Why a command ends without a status. -/
inductive Abort
  | failure (failure : Failure)
  | limitWithoutValue
  | limitOutOfRange
  | limitTooLow
  /-- More frames are in use than the limit allows. -/
  | limitInUse (limit : Nat)
  | nullInPath
  | undecodable (error : Text.DecodeError)
  deriving DecidableEq, Repr

/-- The frames in use when a command sets its limit. -/
def framesInUse : Nat := 10

def Abort.message : Abort → String
  | failure reason => reason.message
  | limitWithoutValue => "'list' object cannot be interpreted as an integer"
  | limitOutOfRange => "Python int too large to convert to C int"
  | limitTooLow => "recursion limit must be greater or equal than 1"
  | limitInUse limit =>
    "cannot set the recursion limit to " ++ toString limit ++ " at the recursion depth " ++
      toString framesInUse ++ ": the limit is too low"
  | nullInPath => nullMessage
  | undecodable error => error.message

structure Report where
  status : Nat
  out : String
  err : String
  prompts : List String

/-- The frames of the stack that an option asks for: a number of 32 bits with a sign, and more than
are in use. -/
def limitOf (option : FrameLimit) : Except Abort Nat :=
  match option with
  | .standard => .ok standardLimit
  | .withoutValue => .error .limitWithoutValue
  | .frames limit =>
    if limit < -0x80000000 ∨ 0x80000000 ≤ limit then .error .limitOutOfRange
    else if limit < 1 then .error .limitTooLow
    else if limit ≤ framesInUse then .error (.limitInUse limit.toNat)
    else .ok limit.toNat

def sessionFor (file : String) (limit : Nat) : Session :=
  { Session.new with file := some file, limit }

def runText (session : Session) (debug : Bool) (source : String) : Except Failure (Nat × String) :=
  match Grammar.read session.limit source with
  | .error error => .error (.badInteger error)
  | .ok reading =>
    if !reading.diagnostics.isEmpty then .ok (1, errorsText reading.errors)
    else
      match session.present debug source reading.program with
      | .error failure => .error failure
      | .ok (value, out, _) => .ok (if value.isError then 1 else 0, out)

def runScript (script : String) (debug : Bool) (limit : Nat)
    (contents : Except FileError (List Nat)) : Except Abort Report :=
  if hasNull script then .error .nullInPath
  else
    match contents with
    | .error error => .ok ⟨1, error.label ++ ": " ++ error.message script ++ "\n", "", []⟩
    | .ok bytes =>
      match Text.ofBytes bytes with
      | .error error => .error (.undecodable error)
      | .ok source =>
        match runText (sessionFor script limit) debug source with
        | .error reason => .error (.failure reason)
        | .ok (status, out) => .ok ⟨status, out, "", []⟩

def runConsole (debug : Bool) (limit : Nat) (entries : List Entry) : Except Abort Report :=
  let console := Console.start (sessionFor Session.standardInput limit) debug
  match console.exchange entries with
  | .error reason => .error (.failure reason)
  | .ok transcript =>
    let out := Console.banner ++ String.join (transcript.turns.map (·.2))
    .ok ⟨0, out, "", transcript.turns.map (·.1)⟩

/-- Runs a command on the files of a tree and the entries that the console will be given. -/
def run (tree : FileTree) (entries : List Entry) (debug : Bool) (arguments : List String) :
    Except Abort Report :=
  match Options.read debug arguments with
  | .error error => .ok ⟨2, "", complaint error, []⟩
  | .ok .help => .ok ⟨0, help, "", []⟩
  | .ok (.go options) => do
    let limit ← limitOf options.limit
    match options.script with
    | none => runConsole options.debug limit entries
    | some script => runScript script options.debug limit (tree.read script)

end CommandLine

end Marmoset
