import Marmoset.Diagnostic

/-!
A cursor on a token stream: the tokens from the current one on, the braces opened so far, and the
diagnostics found so far. Behind its last token a stream goes on with end tokens for ever.
-/

namespace Marmoset

def TokenKind.braces : TokenKind → Int
  | lbrace => 1
  | rbrace => -1
  | _ => 0

structure Cursor where
  /-- The tokens from the current one on. -/
  tokens : List Token
  /-- The line of the end tokens behind the stream. -/
  endLine : Int
  /-- Braces opened and not yet closed, the current token included. -/
  depth : Int
  /-- The diagnostics so far, in the order in which they were found. -/
  diagnostics : List Diagnostic

namespace Cursor

def headKind (tokens : List Token) : TokenKind :=
  match tokens with
  | [] => .eof
  | token :: _ => token.kind

/-- The end tokens behind a stream stand on the line of its last token. -/
def ofTokens (tokens : List Token) : Cursor :=
  { tokens
    endLine := (tokens.getLast?.map Token.line).getD 1
    depth := (headKind tokens).braces
    diagnostics := [] }

def current (cursor : Cursor) : Token := cursor.tokens.headD (.ending cursor.endLine)

def peek (cursor : Cursor) : Token := cursor.tokens.tail.headD (.ending cursor.endLine)

def advance (cursor : Cursor) : Cursor :=
  { cursor with
    tokens := cursor.tokens.tail
    depth := cursor.depth + cursor.peek.kind.braces }

def report (cursor : Cursor) (problem : Problem) (line : Int) : Cursor :=
  { cursor with diagnostics := cursor.diagnostics ++ [⟨problem, line⟩] }

/-- Passes over tokens up to a semicolon, or up to the token before a closing brace or the end.
Braces opened on the way, `opened` of them so far, are passed over with what they hold. -/
def skip : Nat → Int → List Token → Int × List Token
  | _, depth, [] => (depth, [])
  | opened, depth, token :: rest =>
    if token.kind = .eof then (depth, token :: rest)
    else
      let opened := match token.kind with
        | .lbrace => opened + 1
        | .rbrace => opened - 1
        | _ => opened
      if opened = 0 ∧
          (token.kind = .semicolon ∨ headKind rest = .rbrace ∨ headKind rest = .eof) then
        (depth, token :: rest)
      else skip opened (depth + (headKind rest).braces) rest

def resume (cursor : Cursor) : Cursor :=
  let (depth, tokens) := skip 0 cursor.depth cursor.tokens
  { cursor with depth, tokens }

end Cursor

end Marmoset
