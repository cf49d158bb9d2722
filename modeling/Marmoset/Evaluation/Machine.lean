import Marmoset.Scope
import Marmoset.Value.Inspect

/-!
Steps of evaluation: they work on the machine and may stop for a reason, and what was done to the
machine before stays done.
-/

namespace Marmoset

/-- Why an evaluation stops without a value. Errors of the language are values and do not count. -/
inductive Stop
  | exhausted
  /-- A leaf that is no form of the language was reached. -/
  | unknownNode (leaf : Foreign)
  deriving DecidableEq, Repr

abbrev Eval := ExceptT Stop (StateM Machine)

namespace Eval

def outcome {α : Type} (eval : Eval α) (machine : Machine) : Except Stop α × Machine :=
  eval.run.run machine

def freshIdentity : Eval Identity := modifyGet Machine.freshIdentity

def enclose (outer : ScopeId) : Eval ScopeId := modifyGet (·.addScope (some outer))

def bind (scope : ScopeId) (name : String) (value : Value) : Eval Unit :=
  modify (·.bind scope name value)

def lookup (scope : ScopeId) (name : String) : Eval (Option Value) := do
  return (← get).lookup scope name

def print (text : String) : Eval Unit := modify (·.print text)

end Eval

end Marmoset
