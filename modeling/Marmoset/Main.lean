import Marmoset.CommandLine

/-!
The program: reads its arguments and files, and talks to the console.
-/

namespace Marmoset.Main

open CommandLine

def readFile (path : String) : IO (Except FileError (List Nat)) := do
  try
    let bytes ← IO.FS.readBinFile path
    return .ok (bytes.toList.map UInt8.toNat)
  catch
    | .noFileOrDirectory _ _ _ => return .error .missing
    | .permissionDenied _ _ _ => return .error .denied
    | .inappropriateType _ code _ =>
      return .error (if code.toNat = FileError.isDirectory.number then .isDirectory
        else .notDirectory)
    | .invalidArgument file code details =>
      if code.toNat = FileError.nameTooLong.number then return .error .nameTooLong
      else throw (.invalidArgument file code details)
    | error => throw error

def abort (reason : Abort) : IO UInt32 := do
  IO.eprintln reason.message
  return 1

def publish (report : Report) : IO UInt32 := do
  IO.print report.out
  IO.eprint report.err
  return report.status.toUInt32

def nextEntry : IO Entry := do
  let line ← (← IO.getStdin).getLine
  if line.isEmpty then return .finish
  return .line (if line.endsWith "\n" then String.ofList line.toList.dropLast else line)

partial def converse (console : Console) : IO UInt32 := do
  IO.print console.prompt
  (← IO.getStdout).flush
  match console.feed (← nextEntry) with
  | .error reason => abort (.failure reason)
  | .ok turn =>
    IO.print turn.out
    match turn.next with
    | some next => converse next
    | none => return 0

def run (options : Options) : IO UInt32 := do
  match limitOf options.limit with
  | .error reason => abort reason
  | .ok limit =>
    match options.script with
    | none =>
      IO.print Console.banner
      converse (.start (sessionFor Session.standardInput limit) options.debug)
    | some script =>
      match runScript script options.debug limit (← readFile script) with
      | .error reason => abort reason
      | .ok report => publish report

end Marmoset.Main

def main (arguments : List String) : IO UInt32 := do
  let debug := (← IO.getEnv "MONKEYDEBUG").getD "" ≠ ""
  match Marmoset.Options.read debug arguments with
  | .error error => Marmoset.Main.publish ⟨2, "", Marmoset.CommandLine.complaint error, []⟩
  | .ok .help => Marmoset.Main.publish ⟨0, Marmoset.CommandLine.help, "", []⟩
  | .ok (.go options) => Marmoset.Main.run options
