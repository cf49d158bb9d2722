import Marmoset.Text.Utf8
import Marmoset.Workspace.Host

/-!
Addresses of files: a path with every byte outside a small set written as a percent sign and two
hexadecimal digits.
-/

namespace Marmoset.Uri

def isPlain (byte : Nat) : Bool :=
  (0x30 ≤ byte && byte ≤ 0x39) || (0x41 ≤ byte && byte ≤ 0x5a) || (0x61 ≤ byte && byte ≤ 0x7a) ||
    byte = 0x5f || byte = 0x2e || byte = 0x2d || byte = 0x7e || byte = 0x2f

def upperHexDigit (value : Nat) : Char :=
  if value < 10 then Char.ofNat ('0'.toNat + value) else Char.ofNat ('A'.toNat + (value - 10))

def encodeByte (byte : Nat) : List Char :=
  if isPlain byte then [Char.ofNat byte]
  else ['%', upperHexDigit (byte / 16), upperHexDigit (byte % 16)]

def ofPath (path : String) : String :=
  "file://" ++ String.ofList ((Text.encode path).flatMap encodeByte)

def hexValue? (c : Char) : Option Nat :=
  if '0' ≤ c ∧ c ≤ '9' then some (c.toNat - '0'.toNat)
  else if 'a' ≤ c ∧ c ≤ 'f' then some (c.toNat - 'a'.toNat + 10)
  else if 'A' ≤ c ∧ c ≤ 'F' then some (c.toNat - 'A'.toNat + 10)
  else none

def decodeBytes : List Char → List Nat
  | [] => []
  | '%' :: a :: b :: rest =>
    match hexValue? a, hexValue? b with
    | some high, some low => (high * 16 + low) :: decodeBytes rest
    | _, _ => '%'.toNat :: decodeBytes (a :: b :: rest)
  | c :: rest => Text.encodeChar c ++ decodeBytes rest

/-- An address as it is read: without controls and blanks in front, tabs and line breaks. -/
def cleaned (uri : List Char) : List Char :=
  (uri.dropWhile (· ≤ ' ')).filter fun c => c ≠ '\t' && c ≠ '\r' && c ≠ '\n'

def isSchemePart (c : Char) : Bool := c.isAlphanum || c = '+' || c = '-' || c = '.'

def splitScheme (uri : List Char) : List Char × List Char :=
  let name := uri.takeWhile (· ≠ ':')
  match name, uri.drop name.length with
  | first :: _, _ :: rest =>
    if first.isAlpha && name.all isSchemePart then (name.map Char.toLower, rest) else ([], uri)
  | _, _ => ([], uri)

def endsHost (c : Char) : Bool := c = '/' || c = '?' || c = '#'

def splitHost : List Char → List Char × List Char
  | '/' :: '/' :: rest => (rest.takeWhile (!endsHost ·), rest.dropWhile (!endsHost ·))
  | rest => ([], rest)

def unescaped (text : List Char) : List Char := Text.decodeAll 0 (decodeBytes text)

def parameterSchemes : List String :=
  ["", "ftp", "hdl", "prospero", "http", "imap", "https", "shttp", "rtsp", "rtsps", "rtspu", "sip",
    "sips", "mms", "sftp", "tel"]

/-- A path without the parameters of its last name, which start at a semicolon. -/
def withoutParameters (path : List Char) : List Char :=
  let name := (path.reverse.takeWhile (· ≠ '/')).reverse
  path.take (path.length - name.length) ++ name.takeWhile (· ≠ ';')

/-- A path without the slash in front of the letter of a drive, which is written small. -/
def withDrive : List Char → List Char
  | '/' :: letter :: ':' :: rest =>
    if letter.isAlpha then letter.toLower :: ':' :: rest else '/' :: letter :: ':' :: rest
  | path => path

/-- The path of an address: behind its scheme, up to a query, a fragment or parameters. The host of a
file stands before its path, behind two slashes. -/
def path (uri : String) : Except HostError String := do
  let (scheme, rest) := splitScheme (cleaned uri.toList)
  let (host, rest) := splitHost rest
  Host.check host
  let written := rest.takeWhile fun c => c ≠ '?' && c ≠ '#'
  let bare :=
    if parameterSchemes.contains (String.ofList scheme) then withoutParameters written else written
  let path := unescaped bare
  if scheme = "file".toList ∧ host ≠ [] ∧ path ≠ [] then
    return String.ofList ('/' :: '/' :: unescaped host ++ path)
  else return String.ofList (withDrive path)

end Marmoset.Uri
