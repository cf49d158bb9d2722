import Marmoset.Session

/-!
Drafts: values as they are described from outside. Making the value gives each part its identity; a
function is described by a source whose value it is.
-/

namespace Marmoset

inductive Draft
  | integer (value : Int)
  | boolean (value : Bool)
  | string (value : String)
  | null
  | array (elements : List Draft)
  | hash (pairs : List (Draft × Draft))
  | function (source : String)
  | builtin (builtin : Builtin)
  | error (message : String)
  | returned (value : Draft)
  deriving Inhabited

namespace Draft

abbrev Making := ExceptT Failure (StateM Machine)

def ofSource (source : String) : Making Value := fun machine =>
  let (result, session) := (Session.on machine).run source
  (result, session.machine)

def fresh : Making Identity := modifyGet Machine.freshIdentity

mutual

def make : Draft → Making Value
  | integer value => pure (.integer value)
  | boolean value => pure (.boolean value)
  | string value => pure (.string value)
  | null => pure .null
  | array elements => do
    let elements ← makeAll elements
    return .array (← fresh) elements
  | hash pairs => do
    let entries ← makeEntries [] pairs
    return .hash (← fresh) entries
  | function source => ofSource source
  | builtin native => pure (.builtin native)
  | error message => pure (.error (.reported message))
  | returned value => do
    let value ← make value
    return .returned (← fresh) value
termination_by structural draft => draft

def makeAll : List Draft → Making (List Value)
  | [] => pure []
  | draft :: drafts => do
    let value ← make draft
    let values ← makeAll drafts
    return value :: values
termination_by structural drafts => drafts

/-- Pairs are written in order under their keys; a key that is none is left out. -/
def makeEntries : Entries → List (Draft × Draft) → Making Entries
  | written, [] => pure written
  | written, (key, value) :: pairs => do
    let key ← make key
    let value ← make value
    match key.key? with
    | some key => makeEntries (Table.write key value written) pairs
    | none => makeEntries written pairs
termination_by structural _ pairs => pairs

end

def value (draft : Draft) (machine : Machine) : Except Failure Value × Machine :=
  (make draft).run.run machine

def values (drafts : List Draft) (machine : Machine) : Except Failure (List Value) × Machine :=
  (makeAll drafts).run.run machine

end Draft

end Marmoset
