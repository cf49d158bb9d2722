import Marmoset.Text.Line
import Marmoset.Text.Quote
import Marmoset.Text.Utf8

/-!
Files: a tree of directories and files that paths are looked up in, and the reasons why reading one
may fail.
-/

namespace Marmoset

inductive FileError
  | missing
  | isDirectory
  | notDirectory
  /-- The file is there and may not be read. -/
  | denied
  | nameTooLong
  deriving DecidableEq, Repr

namespace FileError

def label : FileError → String
  | missing => "FileNotFoundError"
  | isDirectory => "IsADirectoryError"
  | notDirectory => "NotADirectoryError"
  | denied => "PermissionError"
  | nameTooLong => "OSError"

def number : FileError → Nat
  | missing => 2
  | isDirectory => 21
  | notDirectory => 20
  | denied => 13
  | nameTooLong => 36

def reason : FileError → String
  | missing => "No such file or directory"
  | isDirectory => "Is a directory"
  | notDirectory => "Not a directory"
  | denied => "Permission denied"
  | nameTooLong => "File name too long"

def message (error : FileError) (path : String) : String :=
  "[Errno " ++ toString error.number ++ "] " ++ error.reason ++ ": " ++ Text.quoted path

end FileError

inductive FileEntry
  | file (bytes : List Nat)
  /-- A file that may not be read. -/
  | sealedFile
  | directory
  deriving DecidableEq, Repr

/-- The names that lead to an entry from the top of the tree. -/
abbrev TreePath := List String

structure FileTree where
  entries : List (TreePath × FileEntry)
  /-- Where a path starts that does not start at the top. -/
  home : TreePath

namespace FileTree

def empty : FileTree := ⟨[], []⟩

def names (path : String) : List String := (path.toList.splitOn '/').map String.ofList

def below (home : TreePath) (files : List (String × FileEntry)) : FileTree :=
  ⟨(home, .directory) :: files.map fun (path, entry) => (home ++ names path, entry), home⟩

def seenFrom (tree : FileTree) (home : TreePath) : FileTree :=
  ⟨(home, .directory) :: tree.entries, home⟩

/-- What a path leads to. A directory need not be an entry itself if something lies below it. -/
def entry? (tree : FileTree) (path : TreePath) : Option FileEntry :=
  match tree.entries.find? (·.1 = path) with
  | some (_, entry) => some entry
  | none =>
    if path = [] ∨ tree.entries.any (fun (other, _) => path.isPrefixOf other) then some .directory
    else none

def nameMax : Nat := 255

def pathMax : Nat := 4095

def follow (tree : FileTree) : TreePath → List String → Except FileError TreePath
  | path, [] => .ok path
  | path, name :: names =>
    match tree.entry? path with
    | none => .error .missing
    | some (.file _) => .error .notDirectory
    | some .sealedFile => .error .notDirectory
    | some .directory =>
      if name = "" ∨ name = "." then tree.follow path names
      else if name = ".." then tree.follow path.dropLast names
      else if (Text.encode name).length > nameMax then .error .nameTooLong
      else tree.follow (path ++ [name]) names

def read (tree : FileTree) (path : String) : Except FileError (List Nat) := do
  if path = "" then throw .missing
  if (Text.encode path).length > pathMax then throw .nameTooLong
  let start := if path.startsWith "/" then [] else tree.home
  let found ← tree.follow start (names path)
  match tree.entry? found with
  | none => throw .missing
  | some .directory => throw .isDirectory
  | some .sealedFile => throw .denied
  | some (.file bytes) => return bytes

def paths (tree : FileTree) : List TreePath :=
  let leading (path : TreePath) := (List.range path.length).map fun n => path.take (n + 1)
  (tree.entries.flatMap fun (path, _) => leading path).eraseDups

end FileTree

def hasNull (path : String) : Bool := path.toList.contains (Char.ofNat 0)

def nullMessage : String := "embedded null byte"

/-- Why a file gives no text. -/
inductive TextError
  | nullInPath
  | file (error : FileError) (path : String)
  | undecodable (error : Text.DecodeError)
  deriving DecidableEq, Repr

def TextError.message : TextError → String
  | nullInPath => nullMessage
  | file error path => error.message path
  | undecodable error => error.message

def Text.ofBytes (bytes : List Nat) : Except Text.DecodeError String :=
  (Text.decode bytes).map Text.unifyBreaks

def FileTree.readText (tree : FileTree) (path : String) : Except TextError String :=
  if hasNull path then .error .nullInPath
  else
    match tree.read path with
    | .error error => .error (.file error path)
    | .ok bytes =>
      match Text.ofBytes bytes with
      | .error error => .error (.undecodable error)
      | .ok text => .ok text

end Marmoset
