import Marmoset.Value

/-!
Values as text.
-/

namespace Marmoset

def Key.inspect : Key → String
  | integer value => toString value
  | boolean value => if value then "true" else "false"
  | string value => value

namespace Value

mutual

def inspect : Value → String
  | integer value => toString value
  | boolean value => if value then "true" else "false"
  | string value => value
  | null => "null"
  | array _ elements => "[" ++ ", ".intercalate (inspects elements) ++ "]"
  | hash _ entries => "\x7b" ++ ", ".intercalate (inspectEntries entries) ++ "\x7d"
  | function _ parameters body _ =>
    "fn(" ++ ", ".intercalate (parameters.map Name.text) ++ ") \x7b\n" ++ body.canonical ++ "\n\x7d"
  | builtin _ => "builtin function"
  | error fault => "ERROR: " ++ fault.message
  | returned _ value => inspect value
termination_by structural value => value

def inspects : List Value → List String
  | [] => []
  | value :: values => inspect value :: inspects values
termination_by structural values => values

def inspectEntries : List (Key × Value) → List String
  | [] => []
  | (key, value) :: entries => (key.inspect ++ ": " ++ inspect value) :: inspectEntries entries
termination_by structural entries => entries

end

mutual

/-- The frames that writing a value as text takes. -/
def inspectFrames : Value → Nat
  | array _ elements => 2 + inspectFramesAll elements
  | hash _ entries => 2 + inspectFramesEntries entries
  | function _ _ body _ => 1 + max 2 body.textFrames
  | returned _ value => 1 + inspectFrames value
  | _ => 1
termination_by structural value => value

def inspectFramesAll : List Value → Nat
  | [] => 0
  | value :: values => max (inspectFrames value) (inspectFramesAll values)
termination_by structural values => values

def inspectFramesEntries : List (Key × Value) → Nat
  | [] => 0
  | (_, value) :: entries => max (inspectFrames value) (inspectFramesEntries entries)
termination_by structural entries => entries

end

end Value

end Marmoset
