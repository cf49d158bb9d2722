import Marmoset.Text.Integer
import Marmoset.Text.Quote

/-!
Options of the command line. A long option may be shortened as long as it stays unique, its value may
follow behind an equals sign, and two dashes alone end the options.
-/

namespace Marmoset

inductive FrameLimit
  | standard
  | frames (limit : Int)
  /-- The option is there, but two dashes stand where its value should be. -/
  | withoutValue
  deriving DecidableEq, Repr

structure Options where
  script : Option String
  debug : Bool
  limit : FrameLimit
  deriving DecidableEq, Repr

namespace Options

inductive Switch
  | help
  | debug
  | limit
  deriving DecidableEq, Repr

namespace Switch

def spellings : List (String × Switch) :=
  [("-h", help), ("--help", help), ("--debug", debug), ("--recursion-limit", limit)]

def label : Switch → String
  | help => "-h/--help"
  | debug => "--debug"
  | limit => "--recursion-limit"

end Switch

inductive UsageError
  | unrecognized (arguments : List String)
  | ambiguous (argument : String) (matching : List String)
  | invalidInteger (text : String)
  | missingValue (switch : Switch)
  | ignoredValue (switch : Switch) (value : String)
  deriving DecidableEq, Repr

def UsageError.message : UsageError → String
  | unrecognized arguments => "unrecognized arguments: " ++ " ".intercalate arguments
  | ambiguous argument matching =>
    "ambiguous option: " ++ argument ++ " could match " ++ ", ".intercalate matching
  | invalidInteger text =>
    "argument " ++ Switch.limit.label ++ ": invalid int value: " ++ Text.quoted text
  | missingValue switch => "argument " ++ switch.label ++ ": expected one argument"
  | ignoredValue switch value =>
    "argument " ++ switch.label ++ ": ignored explicit argument " ++ Text.quoted value

/-- What an argument is taken for, before any option takes the argument behind it as its value. -/
inductive Word
  | plain (text : String)
  /-- Two dashes alone. -/
  | dashes
  | switch (switch : Switch) (spelling : String) (value : Option String)
  /-- An option that the command line does not know. -/
  | unknown (text : String)
  deriving DecidableEq, Repr

def withoutBreak (text : List Char) : List Char :=
  if text.getLast? = some '\n' then text.dropLast else text

/-- A minus and a number behind it: digits, or digits around a point. One line break may end it. -/
def looksNegative (text : String) : Bool :=
  match withoutBreak text.toList with
  | '-' :: digits =>
    let isDigit c := (Text.digitValue? c).isSome
    let fraction := digits.dropWhile isDigit
    match fraction with
    | [] => !digits.isEmpty
    | '.' :: decimals => !decimals.isEmpty && decimals.all isDigit
    | _ => false
  | _ => false

def parted (argument : String) : String × Option String :=
  let name := argument.toList.takeWhile (· ≠ '=')
  match argument.toList.drop name.length with
  | [] => (argument, none)
  | _ :: value => (String.ofList name, some (String.ofList value))

/-- The switches that an argument may be short for, each with the value joined to it. -/
def candidates (argument : String) : List (String × Switch × Option String) :=
  if argument.startsWith "--" then
    let (name, value) := parted argument
    Switch.spellings.filterMap fun (spelling, switch) =>
      if spelling.startsWith name then some (spelling, switch, value) else none
  else
    let head := String.ofList (argument.toList.take 2)
    let tail := String.ofList (argument.toList.drop 2)
    Switch.spellings.filterMap fun (spelling, switch) =>
      if spelling = head then some (spelling, switch, some tail)
      else if spelling.startsWith argument then some (spelling, switch, none)
      else none

def Switch.ofSpelling? (spelling : String) : Option Switch :=
  (Switch.spellings.find? (·.1 = spelling)).map (·.2)

/-- Takes an argument that starts with a dash, and is not a known spelling, for what it can be. -/
def classifyDashed (argument : String) : Except UsageError Word :=
  match candidates argument with
  | [(spelling, switch, value)] => .ok (.switch switch spelling value)
  | [] =>
    if looksNegative argument || argument.contains ' ' then .ok (.plain argument)
    else .ok (.unknown argument)
  | several => .error (.ambiguous argument (several.map (·.1)))

def classify (argument : String) : Except UsageError Word :=
  match Switch.ofSpelling? argument with
  | some switch => .ok (.switch switch argument none)
  | none =>
    if !argument.startsWith "-" || argument = "-" then .ok (.plain argument)
    else
      match parted argument with
      | (name, some value) =>
        match Switch.ofSpelling? name with
        | some switch => .ok (.switch switch name (some value))
        | none => classifyDashed argument
      | (_, none) => classifyDashed argument

def classifyAll : List String → Except UsageError (List Word)
  | [] => .ok []
  | "--" :: rest => .ok (.dashes :: rest.map .plain)
  | argument :: rest => do
    let word ← classify argument
    let words ← classifyAll rest
    return word :: words

inductive Request
  | help
  | go (options : Options)
  deriving DecidableEq, Repr

structure Gathered where
  options : Options
  /-- Whether the place of the script is taken. -/
  placed : Bool
  extras : List String

namespace Gathered

def setLimit (gathered : Gathered) (limit : FrameLimit) : Gathered :=
  { gathered with options := { gathered.options with limit } }

def readLimit (gathered : Gathered) (text : String) : Except UsageError Gathered :=
  if text = "--" then .ok (gathered.setLimit .withoutValue)
  else
    match Text.readInteger text with
    | .ok limit => .ok (gathered.setLimit (.frames limit))
    | .error _ => .error (.invalidInteger text)

def setDebug (gathered : Gathered) : Gathered :=
  { gathered with options := { gathered.options with debug := true } }

def setScript (gathered : Gathered) (script : String) : Gathered :=
  { gathered with options := { gathered.options with script := some script }, placed := true }

/-- The first plain argument is the script; there is no place for a second one. -/
def addPlain (gathered : Gathered) (text : String) : Gathered :=
  if gathered.placed then { gathered with extras := gathered.extras ++ [text] }
  else gathered.setScript text

end Gathered

/-- A switch of one dash with letters joined to it stands for as many switches, and `h` is the only
letter there is. -/
def joinedHelp : List Char → Except UsageError Unit
  | [] => .ok ()
  | 'h' :: rest => joinedHelp rest
  | letters => .error (.ignoredValue .help (String.ofList letters))

def gather : Gathered → List Word → Except UsageError Request
  | gathered, [] =>
    if gathered.extras.isEmpty then .ok (.go gathered.options)
    else .error (.unrecognized gathered.extras)
  | gathered, .plain text :: .dashes :: rest =>
    if gathered.placed then gather (gathered.addPlain text) (.dashes :: rest)
    else gather (gathered.setScript text) rest
  | gathered, .plain text :: rest => gather (gathered.addPlain text) rest
  | gathered, .dashes :: rest =>
    if gathered.placed then
      gather { gathered with extras := gathered.extras ++ ["--"] } rest
    else gather gathered rest
  | gathered, .unknown text :: rest =>
    gather { gathered with extras := gathered.extras ++ [text] } rest
  | gathered, .switch .debug _ none :: rest => gather gathered.setDebug rest
  | _, .switch .debug _ (some value) :: _ => .error (.ignoredValue .debug value)
  | _, .switch .help _ none :: _ => .ok .help
  | _, .switch .help spelling (some value) :: _ =>
    if spelling = "-h" ∧ value ≠ "" then do
      joinedHelp value.toList
      return .help
    else .error (.ignoredValue .help value)
  | gathered, .switch .limit _ (some value) :: rest => do
    gather (← gathered.readLimit value) rest
  | gathered, .switch .limit _ none :: .plain value :: rest => do
    gather (← gathered.readLimit value) rest
  | _, .switch .limit _ none :: _ => .error (.missingValue .limit)

def read (debug : Bool) (arguments : List String) : Except UsageError Request := do
  gather ⟨⟨none, debug, .standard⟩, false, []⟩ (← classifyAll arguments)

end Options

end Marmoset
