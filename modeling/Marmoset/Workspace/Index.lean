import Marmoset.Outline
import Marmoset.Table

/-!
The index of a workspace: the symbols of each document, in the order in which the documents were
first indexed, and the symbols of each name.
-/

namespace Marmoset

structure Index where
  documents : List (String × List Symbol)
  /-- The table of names, which is made anew whenever a document is indexed. -/
  globals : List (String × List Symbol)

namespace Index

def empty : Index := ⟨[], []⟩

def symbolsOf? (index : Index) (uri : String) : Option (List Symbol) := Table.find? uri index.documents

def contains (index : Index) (uri : String) : Bool := (index.symbolsOf? uri).isSome

def file (table : List (String × List Symbol)) (symbol : Symbol) : List (String × List Symbol) :=
  Table.write symbol.name ((Table.find? symbol.name table).getD [] ++ [symbol]) table

/-- The index with its table of names emptied and filled from the documents, one after another. -/
def rebuilt (index : Index) : Index :=
  { index with
    globals := index.documents.foldl (fun table document => document.2.foldl file table) [] }

/-- Gives a document its symbols; a new document comes last. -/
def insert (index : Index) (uri : String) (symbols : List Symbol) : Index :=
  ({ index with documents := Table.write uri symbols index.documents } : Index).rebuilt

def lookup (index : Index) (name : String) : Option Symbol :=
  match Table.find? name index.globals with
  | some symbols => symbols.head?
  | none => none

def update (index : Index) (uri text : String) : Except Text.IntegerError (List Notice × Index) := do
  let outline ← Outline.read uri text
  return (outline.notices, index.insert uri outline.symbols)

def listing (index : Index) : List (String × List Symbol) :=
  index.documents.mergeSort fun a b => a.1 ≤ b.1

def globalListing (index : Index) : List (String × List String) :=
  (index.globals.map fun (name, symbols) => (name, symbols.map Symbol.uri)).mergeSort
    fun a b => a.1 ≤ b.1

end Index

end Marmoset
