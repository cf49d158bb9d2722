import Marmoset.Text.Blank
import Marmoset.Text.Quote

/-!
Integers as people write them: blank space around the number, a sign, digits of any script, and an
underscore between two digits.
-/

namespace Marmoset.Text

/-- The zeros of the scripts that have decimal digits; the other nine follow each. -/
def zeros : List Nat :=
  [0x30, 0x660, 0x6f0, 0x7c0, 0x966, 0x9e6, 0xa66, 0xae6, 0xb66, 0xbe6, 0xc66, 0xce6, 0xd66, 0xde6,
    0xe50, 0xed0, 0xf20, 0x1040, 0x1090, 0x17e0, 0x1810, 0x1946, 0x19d0, 0x1a80, 0x1a90, 0x1b50,
    0x1bb0, 0x1c40, 0x1c50, 0xa620, 0xa8d0, 0xa900, 0xa9d0, 0xa9f0, 0xaa50, 0xabf0, 0xff10, 0x104a0,
    0x10d30, 0x11066, 0x110f0, 0x11136, 0x111d0, 0x112f0, 0x11450, 0x114d0, 0x11650, 0x116c0,
    0x11730, 0x118e0, 0x11950, 0x11c50, 0x11d50, 0x11da0, 0x16a60, 0x16ac0, 0x16b50, 0x1d7ce,
    0x1d7d8, 0x1d7e2, 0x1d7ec, 0x1d7f6, 0x1e140, 0x1e2f0, 0x1e950, 0x1fbf0]

def digitValue? (c : Char) : Option Nat :=
  (zeros.find? fun base => base ≤ c.toNat && c.toNat < base + 10).map (c.toNat - ·)

def decimal (digits : List Nat) : Nat := digits.foldl (fun value digit => 10 * value + digit) 0

/-- The digits of a numeral; one underscore may stand between two of them. -/
def digits? : List Char → Option (List Nat)
  | [] => none
  | [c] => (digitValue? c).map ([·])
  | c :: '_' :: rest => do return (← digitValue? c) :: (← digits? rest)
  | c :: next :: rest => do return (← digitValue? c) :: (← digits? (next :: rest))

def isNumeral (c : Char) : Bool := c = '_' || (digitValue? c).isSome

/-- Blank space that may stand around an integer: all but the four information separators. -/
def isPadding (c : Char) : Bool := isSpace c && !(0x1c ≤ c.toNat && c.toNat ≤ 0x1f)

def signed : List Char → Bool × List Char
  | '-' :: rest => (true, rest)
  | '+' :: rest => (false, rest)
  | rest => (false, rest)

/-- The greatest number of digits that an integer may be written with; leading zeros count. -/
def digitMax : Nat := 4300

inductive IntegerError
  | malformed (text : String)
  | tooManyDigits (count : Nat)
  deriving DecidableEq, Repr

namespace IntegerError

def shown : Nat := 200

def message : IntegerError → String
  | malformed text =>
    "invalid literal for int() with base 10: " ++ String.ofList ((quoted text).toList.take shown)
  | tooManyDigits count =>
    "Exceeds the limit (" ++ toString digitMax ++
      " digits) for integer string conversion: value has " ++ toString count ++
      " digits; use sys.set_int_max_str_digits() to increase the limit"

end IntegerError

/-- Reads an integer. The digits are counted before what stands behind them is looked at. -/
def readInteger (text : String) : Except IntegerError Int :=
  let (negative, written) := signed (text.toList.dropWhile isPadding)
  match digits? (written.takeWhile isNumeral) with
  | none => .error (.malformed text)
  | some digits =>
    if digits.length > digitMax then .error (.tooManyDigits digits.length)
    else if (written.dropWhile isNumeral).all isPadding then
      .ok (if negative then -(decimal digits : Int) else decimal digits)
    else .error (.malformed text)

end Marmoset.Text
