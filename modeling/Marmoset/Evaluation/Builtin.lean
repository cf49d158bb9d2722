import Marmoset.Evaluation.Agenda

/-!
The built-in functions. They check their own arguments, and none of them changes an argument. Two calls
lead to each of them: the one that applies a value, and its own.
-/

namespace Marmoset.Builtin

open Agenda

def refuse (calls : Nat) (reason : Fault) : Agenda Value := do
  room calls
  return .error reason

def newArray (elements : List Value) : Agenda Value := do
  room 3
  make (.array elements)

def onArray (builtin : Builtin) (arguments : List Value) (next : List Value → Agenda Value) :
    Agenda Value :=
  match arguments with
  | [.array _ elements] => next elements
  | [value] => refuse 3 (.notArray builtin value.tag)
  | values => refuse 4 (.arity values.length 1)

def count (size : Nat) : Agenda Value := do
  room 3
  return .integer size

def measure (arguments : List Value) : Agenda Value :=
  match arguments with
  | [.string text] => count text.length
  | [.array _ elements] => count elements.length
  | [value] => refuse 3 (.unmeasurable value.tag)
  | values => refuse 4 (.arity values.length 1)

def append (arguments : List Value) : Agenda Value :=
  match arguments with
  | [.array _ elements, value] => newArray (elements ++ [value])
  | [value, _] => refuse 3 (.notArray push value.tag)
  | values => refuse 4 (.arity values.length 2)

/-- Prints values line by line. Writing a value as text may take more of the stack than there is. -/
def printAll : List Value → Agenda Unit
  | [] => pure ()
  | value :: values => do
    room (2 + value.inspectFrames)
    print (value.inspect ++ "\n")
    printAll values

def apply (builtin : Builtin) (arguments : List Value) : Agenda Value := do
  room 2
  match builtin with
  | len => measure arguments
  | first => onArray first arguments fun elements => pure (elements.head?.getD .null)
  | last => onArray last arguments fun elements => pure (elements.getLast?.getD .null)
  | rest => onArray rest arguments fun
    | [] => pure .null
    | _ :: elements => newArray elements
  | push => append arguments
  | puts => do
    printAll arguments
    return .null

end Marmoset.Builtin
