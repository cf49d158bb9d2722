import Marmoset.Evaluation
import Marmoset.Grammar

/-!
A session: sources run one after another in one root scope, whose bindings stay.
-/

namespace Marmoset

/-- Why a request has no value at all. Faults of the language are values and do not count. -/
inductive Failure
  | rejected (errors : List String) (file : Option String)
  | badInteger (error : Text.IntegerError)
  | unknownNode (leaf : Foreign)
  /-- A call by a name that has no binding. -/
  | nothingToCall
  | exhausted
  deriving DecidableEq, Repr

namespace Failure

def rejection (errors : List String) (file : Option String) : String :=
  let count := toString errors.length ++ " parse error(s)"
  let place := match file with
    | none => ""
    | some name => " in " ++ name
  let list := if errors.isEmpty then "" else ": " ++ "; ".intercalate errors
  count ++ place ++ list

def message : Failure → String
  | rejected errors file => rejection errors file
  | badInteger error => error.message
  | unknownNode leaf => "Unknown node type '" ++ leaf.kind ++ "'"
  | nothingToCall => "'NoneType' object has no attribute 'type'"
  | exhausted => Fault.stackExhausted.message

end Failure

/-- What an evaluation comes to outside: an error is a value, and a stop is a failure. -/
def Stop.conclude : Except Stop Value → Except Failure Value
  | .ok value => .ok value
  | .error .exhausted => .error .exhausted
  | .error (.unknownNode leaf) => .error (.unknownNode leaf)

structure Session where
  /-- The name that messages give to the source. -/
  file : Option String
  /-- Frames of the stack. -/
  limit : Nat
  root : ScopeId
  machine : Machine

namespace Session

def standardInput : String := "<stdin>"

def within (machine : Machine) (root : ScopeId) : Session :=
  ⟨some standardInput, standardLimit, root, machine⟩

def on (machine : Machine) : Session :=
  let (root, machine) := machine.addScope none
  within machine root

def new : Session := on .empty

def read (session : Session) (source : String) : Except Failure Node :=
  match Grammar.read session.limit source with
  | .error error => .error (.badInteger error)
  | .ok reading =>
    if reading.diagnostics.isEmpty then .ok reading.program
    else .error (.rejected reading.errors session.file)

/-- Evaluates a node in the root scope; where the stack does not suffice, the value is an error. -/
def evaluate (session : Session) (node : Node) : Except Failure Value × Session :=
  let (result, machine) :=
    (Evaluation.evaluate session.limit session.root node).outcome session.machine
  let result := match result with
    | .error .exhausted => .ok (.error .stackExhausted)
    | result => Stop.conclude result
  (result, { session with machine })

def run (session : Session) (source : String) : Except Failure Value × Session :=
  match session.read source with
  | .error failure => (.error failure, session)
  | .ok program => session.evaluate program

def call (session : Session) (callee : Value) (arguments : List Value) :
    Except Failure Value × Session :=
  let (result, machine) :=
    (Evaluation.apply session.limit callee arguments).outcome session.machine
  (Stop.conclude result, { session with machine })

def get? (session : Session) (name : String) : Option Value :=
  session.machine.lookup session.root name

def callNamed (session : Session) (name : String) (arguments : List Value) :
    Except Failure Value × Session :=
  match session.get? name with
  | some callee => session.call callee arguments
  | none => (.error .nothingToCall, session)

def set (session : Session) (name : String) (value : Value) : Session :=
  { session with machine := session.machine.bind session.root name value }

def takePrinted (session : Session) : String × Session :=
  let (text, machine) := session.machine.takePrinted
  (text, { session with machine })

def bindings (session : Session) : List (String × String) :=
  let texts := (session.machine.bindings session.root).map fun (name, value) => (name, value.inspect)
  texts.mergeSort fun a b => a.1 < b.1 || (a.1 = b.1 && a.2 ≤ b.2)

end Session

end Marmoset
