import Marmoset.Workspace.Index
import Marmoset.Workspace.Library

/-!
The server behind an editor: it keeps the index, answers requests, and scans the files of the workspace
the first time that a word is asked for.
-/

namespace Marmoset

structure Server (library : Library) where
  index : Index
  documents : library.Documents
  /-- Whether the workspace has been scanned. -/
  scanned : Bool
  tree : FileTree
  /-- The directory of the workspace, if there is one. -/
  root : Option TreePath

namespace Server

inductive Message
  | publish (uri : String) (notices : List Notice)
  | warning (text : String)

inductive Request
  | update (uri text : String)
  | lookup (word : String)
  | opened (uri text : String)
  | changed (uri text : String)
  | symbols (uri : String)
  | hover (uri : String) (line character : Int)
  | definition (uri : String) (line character : Int)

inductive Reply
  | done
  | notices (notices : List Notice)
  | symbol (symbol : Option Symbol)
  | symbols (symbols : List Symbol)
  | hover (detail : Option String)
  | location (place : Option (String × Range))
  | refused (refusal : Refusal)

variable {library : Library}

def initial (library : Library) (tree : FileTree) (root : Option TreePath) : Server library :=
  ⟨.empty, library.noDocuments, false, tree, root⟩

def start (tree : FileTree) (root : Option TreePath) : Server .standard := initial .standard tree root

/-- Indexes a text; where its outline cannot be read the index stays as it was. -/
def updateIndex (server : Server library) (uri text : String) :
    Except Text.IntegerError (List Notice) × Server library :=
  match server.index.update uri text with
  | .error error => (.error error, server)
  | .ok (notices, index) => (.ok notices, { server with index })

def suffix : String := ".mky"

def sourcePaths (server : Server library) (root : TreePath) : List TreePath :=
  server.tree.paths.filter fun path =>
    root.isPrefixOf path && root ≠ path && (path.getLast?.getD "").endsWith suffix

def pathText (path : TreePath) : String := "/" ++ "/".intercalate path

/-- Scans files one after another. A file that cannot be read leaves a warning; one that holds no
text, or no outline, ends the scan. -/
def scanFiles : Server library → List TreePath → Except Refusal Unit × List Message × Server library
  | server, [] => (.ok (), [], server)
  | server, path :: paths =>
    let place := pathText path
    let uri := Uri.ofPath place
    if server.index.contains uri then scanFiles server paths
    else
      match server.tree.readText place with
      | .error (.file error _) =>
        let text := "[LSP] Failed to index " ++ place ++ ": " ++ error.message place
        let (result, messages, server) := scanFiles server paths
        (result, .warning text :: messages, server)
      | .error error => (.error (.unreadable error), [], server)
      | .ok text =>
        match server.updateIndex uri text with
        | (.error error, server) => (.error (.badInteger error), [], server)
        | (.ok _, server) => scanFiles server paths

def scan (server : Server library) : Except Refusal Unit × List Message × Server library :=
  if server.scanned then (.ok (), [], server)
  else
    match server.root with
    | none => (.ok (), [], { server with scanned := true })
    | some root =>
      match scanFiles server (server.sourcePaths root) with
      | (.ok (), messages, server) => (.ok (), messages, { server with scanned := true })
      | (.error refusal, messages, server) => (.error refusal, messages, server)

def refresh (server : Server library) (uri text : String) : Reply × List Message × Server library :=
  match server.updateIndex uri text with
  | (.error error, server) => (.refused (.badInteger error), [], server)
  | (.ok notices, server) => (.done, [.publish uri notices], server)

def ask (server : Server library) (uri : String) (line character : Nat)
    (answer : Option Symbol → Reply) : Reply × List Message × Server library :=
  match library.textOf server.documents server.tree uri with
  | .error refusal => (.refused refusal, [], server)
  | .ok text =>
    let word := library.word text line character
    if word = "" then (answer none, [], server)
    else
      match server.scan with
      | (.error refusal, messages, server) => (.refused refusal, messages, server)
      | (.ok (), messages, server) => (answer (server.index.lookup word), messages, server)

def askAt (server : Server library) (uri : String) (line character : Int)
    (answer : Option Symbol → Reply) : Reply × List Message × Server library :=
  match library.position line character with
  | .error refusal => (.refused refusal, [], server)
  | .ok (line, character) => server.ask uri line character answer

def handle (server : Server library) : Request → Reply × List Message × Server library
  | .update uri text =>
    match server.updateIndex uri text with
    | (.error error, server) => (.refused (.badInteger error), [], server)
    | (.ok notices, server) => (.notices notices, [], server)
  | .lookup word => (.symbol (server.index.lookup word), [], server)
  | .opened uri text =>
    match library.opened server.documents uri text with
    | .error refusal => (.refused refusal, [], server)
    | .ok documents => refresh { server with documents } uri text
  | .changed uri text =>
    match library.changed server.documents uri text with
    | .error refusal => (.refused refusal, [], server)
    | .ok documents =>
      let server := { server with documents }
      match library.textOf documents server.tree uri with
      | .error refusal => (.refused refusal, [], server)
      | .ok source => server.refresh uri source
  | .symbols uri => (.symbols ((server.index.symbolsOf? uri).getD []), [], server)
  | .hover uri line character =>
    server.askAt uri line character fun symbol => .hover (symbol.map Symbol.detail)
  | .definition uri line character =>
    server.askAt uri line character fun symbol =>
      .location (symbol.map fun symbol => (symbol.uri, symbol.range))

end Server

end Marmoset
