import Marmoset.Grammar
import Marmoset.Text.Line

/-!
The outline of a document: its top-level bindings and its diagnostics, with the ranges that an
editor marks. Lines and columns count from zero here.
-/

namespace Marmoset

structure Range where
  startLine : Int
  startColumn : Int
  endLine : Int
  endColumn : Int
  deriving DecidableEq, Repr

inductive SymbolKind
  | function
  | variable
  deriving DecidableEq, Repr

structure Symbol where
  name : String
  kind : SymbolKind
  uri : String
  line : Int
  column : Int
  detail : String
  deriving DecidableEq, Repr

def Symbol.range (symbol : Symbol) : Range :=
  ⟨symbol.line, symbol.column, symbol.line, symbol.column + symbol.name.length⟩

structure Notice where
  message : String
  range : Range
  deriving DecidableEq, Repr

structure Outline where
  symbols : List Symbol
  notices : List Notice

namespace Outline

/-- The length of a line without its break, zero where there is no such line. -/
def lineLength (text : String) (line : Int) : Nat :=
  if line < 0 then 0 else (((Text.lines text)[line.toNat]?).map (·.body.length)).getD 0

def lineRange (text : String) (line : Int) : Range := ⟨line, 0, line, lineLength text line⟩

def noticeOf (text : String) (diagnostic : Diagnostic) : Notice :=
  ⟨diagnostic.problem.message, lineRange text (diagnostic.line - 1)⟩

def symbolOf? (uri : String) : Node → Option Symbol
  | .binding name (.function parameters _ _) _ =>
    let list := ", ".intercalate (parameters.map Name.text)
    some ⟨name.text, .function, uri, name.line - 1, name.column,
      "let " ++ name.text ++ " = fn(" ++ list ++ ")"⟩
  | .binding name _ _ =>
    some ⟨name.text, .variable, uri, name.line - 1, name.column, "let " ++ name.text⟩
  | _ => none

def ofReading (uri text : String) (reading : Reading) : Outline :=
  ⟨reading.statements.filterMap (symbolOf? uri), reading.diagnostics.map (noticeOf text)⟩

def read (uri text : String) : Except Text.IntegerError Outline :=
  (Grammar.read standardLimit text).map (ofReading uri text)

end Outline

end Marmoset
