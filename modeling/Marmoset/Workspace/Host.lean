import Marmoset.Text.Quote

/-!
Hosts of addresses. A host with brackets holds a number between them: eight groups of hexadecimal
digits, or a number of a later kind. No character of a host may stand for a delimiter in another
form.
-/

namespace Marmoset

inductive HostError
  /-- A bracket without its partner. -/
  | unpairedBracket
  /-- Between brackets stands what starts like a number of a later kind and is none. -/
  | laterNumber
  /-- Between brackets stands no number. -/
  | notNumber (text : String)
  /-- Between brackets stand four decimal numbers, which take none. -/
  | decimalNumber
  | disguisedDelimiter (host : String)
  deriving DecidableEq, Repr

def HostError.message : HostError → String
  | unpairedBracket => "Invalid IPv6 URL"
  | laterNumber => "IPvFuture address is invalid"
  | notNumber text => Text.quoted text ++ " does not appear to be an IPv4 or IPv6 address"
  | decimalNumber => "An IPv4 address cannot be in brackets"
  | disguisedDelimiter host =>
    "netloc '" ++ host ++ "' contains invalid characters under NFKC normalization"

namespace Host

def parts (separator : Char) : List Char → List (List Char)
  | [] => [[]]
  | c :: rest =>
    if c = separator then [] :: parts separator rest
    else
      match parts separator rest with
      | [] => [[c]]
      | first :: others => (c :: first) :: others

def isHexDigit (c : Char) : Bool := c.isDigit || ('a' ≤ c && c ≤ 'f') || ('A' ≤ c && c ≤ 'F')

def isOctet (part : List Char) : Bool :=
  part ≠ [] && part.length ≤ 3 && part.all Char.isDigit && (part = ['0'] || part.head? ≠ some '0') &&
    part.foldl (fun value digit => 10 * value + (digit.toNat - '0'.toNat)) 0 < 256

def isDecimal (text : List Char) : Bool :=
  (parts '.' text).length = 4 && (parts '.' text).all isOctet

def isGroup (part : List Char) : Bool := part ≠ [] && part.length ≤ 4 && part.all isHexDigit

def besideGap (groups : List (List Char)) : List (List Char) := if groups = [[]] then [] else groups

def fillsEight (groups : List (List Char)) : Bool :=
  let inner := groups.tail.dropLast
  match inner.count [] with
  | 0 => groups.length = 8 && groups.all isGroup
  | 1 =>
    let gap := inner.idxOf [] + 1
    let left := besideGap (groups.take gap)
    let right := besideGap (groups.drop (gap + 1))
    left.length + right.length < 8 && (left ++ right).all isGroup
  | _ => false

/-- Groups in which a decimal number at the end stands for two; none where it is no such number. -/
def widened? (groups : List (List Char)) : Option (List (List Char)) :=
  match groups.getLast? with
  | some last =>
    if last.contains '.' then
      if isDecimal last then some (groups.dropLast ++ [['0'], ['0']]) else none
    else some groups
  | none => none

def isGrouped (text : List Char) : Bool :=
  let groups := parts ':' text
  groups.length ≥ 3 && (widened? groups).any fillsEight

def isZoned (text : List Char) : Bool :=
  match parts '%' text with
  | [number] => isGrouped number
  | [number, zone] => isGrouped number && zone ≠ []
  | _ => false

def isLater (text : List Char) : Bool :=
  text.takeWhile isHexDigit ≠ [] &&
    match text.dropWhile isHexDigit with
    | '.' :: _ :: _ => true
    | _ => false

def checkNumber (text : List Char) : Except HostError Unit :=
  match text with
  | 'v' :: rest => if isLater rest then .ok () else .error .laterNumber
  | _ =>
    if isDecimal text then .error .decimalNumber
    else if isZoned text then .ok ()
    else .error (.notNumber (String.ofList text))

/-- Characters that stand for a slash, a question mark, a number sign, an at sign or a colon. -/
def disguises : List Nat :=
  [0x2047, 0x2048, 0x2049, 0x2100, 0x2101, 0x2105, 0x2106, 0x2a74, 0xfe13, 0xfe16, 0xfe55, 0xfe56,
    0xfe5f, 0xfe6b, 0xff03, 0xff0f, 0xff1a, 0xff1f, 0xff20]

/-- Checks a host: first its brackets, then its characters. -/
def check (host : List Char) : Except HostError Unit := do
  if host.contains '[' ≠ host.contains ']' then throw .unpairedBracket
  if host.contains '[' then
    checkNumber (((host.dropWhile (· ≠ '[')).drop 1).takeWhile (· ≠ ']'))
  if host.any fun c => disguises.contains c.toNat then
    throw (.disguisedDelimiter (String.ofList host))

end Host

end Marmoset
