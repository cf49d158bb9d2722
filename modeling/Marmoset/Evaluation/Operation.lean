import Marmoset.Table
import Marmoset.Value.Equality

/-!
What operators and indexing do to values.
-/

namespace Marmoset

/-- The signed 64-bit integer that agrees with `value` modulo 2^64. -/
def wrap (value : Int) : Int := value.bmod 0x10000000000000000

/-- Wrapping shifts the range of the words to start at zero, takes the remainder and shifts back. -/
theorem wrap_eq (value : Int) :
    wrap value = (value + 0x8000000000000000) % 0x10000000000000000 - 0x8000000000000000 := by
  have range : ((0x10000000000000000 : Nat) : Int) = 0x10000000000000000 := rfl
  rw [wrap, Int.bmod_def, range]
  split <;> omega

/-- A quotient toward zero is that of the magnitudes, negated where just one side is negative. -/
theorem tdiv_eq_magnitudes (left right : Int) :
    left.tdiv right =
      if decide (left < 0) = decide (right < 0) then ((left.natAbs / right.natAbs : Nat) : Int)
      else -((left.natAbs / right.natAbs : Nat) : Int) := by
  cases left with
  | ofNat high =>
      have above : ¬ Int.ofNat high < 0 := Int.not_lt.mpr (Int.natCast_nonneg high)
      cases right with
      | ofNat low =>
          have positive : ¬ Int.ofNat low < 0 := Int.not_lt.mpr (Int.natCast_nonneg low)
          simp only [above, positive, if_true, Int.tdiv]
          rfl
      | negSucc low =>
          simp only [above, Int.negSucc_lt_zero, Int.tdiv]
          rfl
  | negSucc high =>
      cases right with
      | ofNat low =>
          have positive : ¬ Int.ofNat low < 0 := Int.not_lt.mpr (Int.natCast_nonneg low)
          simp only [positive, Int.negSucc_lt_zero, Int.tdiv]
          rfl
      | negSucc low =>
          simp only [Int.negSucc_lt_zero, Int.tdiv]
          rfl

namespace Operator

def onIntegers (operator : Operator) (left right : Int) : Except Fault Value :=
  match operator with
  | add => .ok (.integer (wrap (left + right)))
  | sub => .ok (.integer (wrap (left - right)))
  | mul => .ok (.integer (wrap (left * right)))
  | div =>
    if right = 0 then .error .divisionByZero else .ok (.integer (wrap (left.tdiv right)))
  | lt => .ok (.boolean (left < right))
  | gt => .ok (.boolean (left > right))
  | eq => .ok (.boolean (left = right))
  | ne => .ok (.boolean (left ≠ right))
  | not => .error (.binaryUnsupported .integer not .integer)

def onStrings (operator : Operator) (left right : String) : Except Fault Value :=
  match operator with
  | add => .ok (.string (left ++ right))
  | operator => .error (.binaryUnsupported .string operator .string)

/-- Values that are neither two integers nor two strings can only be compared, by identity. -/
def onOthers (operator : Operator) (left right : Value) : Except Fault Value :=
  if left.tag ≠ right.tag then .error (.mismatch left.tag operator right.tag)
  else
    match operator with
    | eq => .ok (.boolean (left.identical right))
    | ne => .ok (.boolean (!left.identical right))
    | operator => .error (.binaryUnsupported left.tag operator right.tag)

def onBoth (operator : Operator) (left right : Value) : Except Fault Value :=
  match left, right with
  | .integer left, .integer right => operator.onIntegers left right
  | .string left, .string right => operator.onStrings left right
  | left, right => operator.onOthers left right

def onOne (operator : Operator) (operand : Value) : Except Fault Value :=
  match operator, operand with
  | not, operand => .ok (.boolean (!operand.truthy))
  | sub, .integer value => .ok (.integer (wrap (-value)))
  | operator, operand => .error (.unaryUnsupported operator operand.tag)

end Operator

def Value.indexed (container position : Value) : Except Fault Value :=
  match container, position with
  | .array _ elements, .integer position =>
    if 0 ≤ position then .ok (elements[position.toNat]?.getD .null) else .ok .null
  | .hash _ entries, position =>
    match position.key? with
    | some key => .ok ((Table.find? key entries).getD .null)
    | none => .error (.unhashable position.tag)
  | container, _ => .error (.notIndexable container.tag)

end Marmoset
