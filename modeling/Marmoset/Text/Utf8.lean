import Marmoset.Text.Quote

/-!
Decoding UTF-8. Where the bytes are no text, the reason and the bytes at fault are told: those of
the character that could not be completed, from its first byte on.
-/

namespace Marmoset.Text

inductive DecodeReason
  | invalidStart
  | invalidContinuation
  | unexpectedEnd
  deriving DecidableEq, Repr

def DecodeReason.text : DecodeReason → String
  | invalidStart => "invalid start byte"
  | invalidContinuation => "invalid continuation byte"
  | unexpectedEnd => "unexpected end of data"

structure DecodeError where
  position : Nat
  byte : Nat
  count : Nat
  reason : DecodeReason
  deriving DecidableEq, Repr

def DecodeError.message (error : DecodeError) : String :=
  let place :=
    if error.count = 1 then
      "byte 0x" ++ String.ofList (hex 2 error.byte) ++ " in position " ++ toString error.position
    else
      "bytes in position " ++ toString error.position ++ "-" ++
        toString (error.position + error.count - 1)
  "'utf-8' codec can't decode " ++ place ++ ": " ++ error.reason.text

/-- What the first byte of a character asks for: how many bytes follow it, its own bits, and the
range of the byte behind it. -/
structure Lead where
  following : Nat
  bits : Nat
  low : Nat
  high : Nat

def lead? (byte : Nat) : Option Lead :=
  if byte < 0x80 then some ⟨0, byte, 0, 0⟩
  else if byte < 0xc2 then none
  else if byte < 0xe0 then some ⟨1, byte - 0xc0, 0x80, 0xbf⟩
  else if byte = 0xe0 then some ⟨2, 0, 0xa0, 0xbf⟩
  else if byte = 0xed then some ⟨2, 0xd, 0x80, 0x9f⟩
  else if byte < 0xf0 then some ⟨2, byte - 0xe0, 0x80, 0xbf⟩
  else if byte = 0xf0 then some ⟨3, 0, 0x90, 0xbf⟩
  else if byte < 0xf4 then some ⟨3, byte - 0xf0, 0x80, 0xbf⟩
  else if byte = 0xf4 then some ⟨3, 4, 0x80, 0x8f⟩
  else none

/-- The code point of a character whose first byte gave `bits`, and how many bytes it took behind
the first, or why there is none and how many of the bytes behind the first were good. -/
def continued : Nat → Nat → Nat → Nat → List Nat → Except (DecodeReason × Nat) Nat
  | 0, bits, _, _, _ => .ok bits
  | _ + 1, _, _, _, [] => .error (.unexpectedEnd, 0)
  | following + 1, bits, low, high, byte :: rest =>
    if low ≤ byte ∧ byte ≤ high then
      match continued following (bits * 64 + (byte - 0x80)) 0x80 0xbf rest with
      | .ok code => .ok code
      | .error (reason, good) => .error (reason, good + 1)
    else .error (.invalidContinuation, 0)

/-- The characters of bytes, the first of which stands at `position`; the first `pending` bytes
belong to a character already read. -/
def decodeFrom : Nat → Nat → List Nat → Except DecodeError (List Char)
  | _, _, [] => .ok []
  | pending + 1, position, _ :: rest => decodeFrom pending (position + 1) rest
  | 0, position, byte :: rest =>
    match lead? byte with
    | none => .error ⟨position, byte, 1, .invalidStart⟩
    | some lead =>
      match continued lead.following lead.bits lead.low lead.high rest with
      | .ok code =>
        match decodeFrom lead.following (position + 1) rest with
        | .ok characters => .ok (Char.ofNat code :: characters)
        | .error error => .error error
      | .error (reason, good) => .error ⟨position, byte, good + 1, reason⟩

def decode (bytes : List Nat) : Except DecodeError String :=
  (decodeFrom 0 0 bytes).map String.ofList

def replacement : Char := Char.ofNat 0xfffd

/-- The characters of bytes, with one replacement for the bytes of each character that could not be
completed; the first `pending` bytes belong to a character already read. -/
def decodeAll : Nat → List Nat → List Char
  | _, [] => []
  | pending + 1, _ :: rest => decodeAll pending rest
  | 0, byte :: rest =>
    match lead? byte with
    | none => replacement :: decodeAll 0 rest
    | some lead =>
      match continued lead.following lead.bits lead.low lead.high rest with
      | .ok code => Char.ofNat code :: decodeAll lead.following rest
      | .error (_, good) => replacement :: decodeAll good rest

def encodeChar (c : Char) : List Nat :=
  let n := c.toNat
  if n < 0x80 then [n]
  else if n < 0x800 then [0xc0 + n / 64, 0x80 + n % 64]
  else if n < 0x10000 then [0xe0 + n / 4096, 0x80 + n / 64 % 64, 0x80 + n % 64]
  else [0xf0 + n / 262144, 0x80 + n / 4096 % 64, 0x80 + n / 64 % 64, 0x80 + n % 64]

def encode (text : String) : List Nat := text.toList.flatMap encodeChar

end Marmoset.Text
