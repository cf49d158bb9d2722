import Marmoset.Value

/-!
Two equalities. The language compares by identity what carries one. A program that embeds the
language sees contents instead: hashes and functions still differ unless they are the same one, but
arrays, faults and return markers are equal when what they hold is.
-/

namespace Marmoset.Value

/-- Equality in the language, on two values of one type. -/
def identical : Value → Value → Bool
  | integer a, integer b => a = b
  | boolean a, boolean b => a = b
  | string a, string b => a = b
  | null, null => true
  | array a _, array b _ => a = b
  | hash a _, hash b _ => a = b
  | function a _ _ _, function b _ _ _ => a = b
  | builtin a, builtin b => a = b
  | returned a _, returned b _ => a = b
  | _, _ => false

mutual

def equal : Value → Value → Bool
  | integer a, integer b => a = b
  | boolean a, boolean b => a = b
  | string a, string b => a = b
  | null, null => true
  | array _ as, array _ bs => equalAll as bs
  | hash a _, hash b _ => a = b
  | function a _ _ _, function b _ _ _ => a = b
  | builtin a, builtin b => a = b
  | error a, error b => a.message = b.message
  | returned _ a, returned _ b => equal a b
  | _, _ => false
termination_by structural value => value

def equalAll : List Value → List Value → Bool
  | [], [] => true
  | a :: as, b :: bs => equal a b && equalAll as bs
  | _, _ => false
termination_by structural values => values

end

end Marmoset.Value
