import Marmoset.Table
import Marmoset.Text.Quote
import Marmoset.Value

/-!
Scopes and the machine that holds them. A scope binds names and may lie inside another one, which
is always older than itself; a name is looked for outward.
-/

namespace Marmoset

/-- Bindings of names; a name that is bound again keeps its place. -/
abbrev Bindings := List (String × Value)

structure Scope where
  bindings : Bindings
  outer : Option ScopeId

/-- The state that evaluation works on: every scope ever made, the next identity, and the text
printed so far. -/
structure Machine where
  scopes : Array Scope
  next : Identity
  printed : String

namespace Machine

def empty : Machine := ⟨#[], 0, ""⟩

def addScope (machine : Machine) (outer : Option ScopeId) : ScopeId × Machine :=
  (machine.scopes.size, { machine with scopes := machine.scopes.push ⟨[], outer⟩ })

def bind (machine : Machine) (scope : ScopeId) (name : String) (value : Value) : Machine :=
  { machine with
    scopes := machine.scopes.modify scope fun s => { s with bindings := Table.write name value s.bindings } }

def search (machine : Machine) (name : String) : Nat → ScopeId → Option Value
  | 0, _ => none
  | steps + 1, id =>
    match machine.scopes[id]? with
    | none => none
    | some scope =>
      match Table.find? name scope.bindings with
      | some value => some value
      | none =>
        match scope.outer with
        | none => none
        | some outer => search machine name steps outer

/-- The value of a name in the nearest scope that binds it. An outer scope is older, so the way
outward has no more steps than there are scopes up to this one. -/
def lookup (machine : Machine) (scope : ScopeId) (name : String) : Option Value :=
  machine.search name (scope + 1) scope

def freshIdentity (machine : Machine) : Identity × Machine :=
  (machine.next, { machine with next := machine.next + 1 })

def print (machine : Machine) (text : String) : Machine :=
  { machine with printed := machine.printed ++ text }

def takePrinted (machine : Machine) : String × Machine :=
  (machine.printed, { machine with printed := "" })

def bindings (machine : Machine) (scope : ScopeId) : Bindings :=
  match machine.scopes[scope]? with
  | none => []
  | some scope => scope.bindings

def describe (machine : Machine) (scope : ScopeId) : String :=
  let names := ((machine.bindings scope).map (·.1)).mergeSort fun a b => a ≤ b
  let enclosed := (machine.scopes[scope]?.bind Scope.outer).isSome
  "Environment([" ++ ", ".intercalate (names.map Text.quoted) ++ "], outer=" ++
    (if enclosed then "True" else "False") ++ ")"

end Machine

end Marmoset
