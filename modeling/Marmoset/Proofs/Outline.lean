import Marmoset.Outline
import Marmoset.Proofs.Grammar.Rounds
import Marmoset.Proofs.Token.Places

/-!
The symbols of a document stand in the order of its text. Its tokens do, and the names that are bound are
some of them, whether other statements can be read or not.
-/

namespace Marmoset

namespace Production

theorem expected {frames : Nat} {kind : TokenKind} {cursor after : Cursor}
    (read : expect frames kind cursor = .read () after) :
    cursor.peek.kind = kind ∧ after = cursor.advance := by
  rcases expect_cases frames kind cursor with ⟨same, found⟩ | ⟨-, missed⟩ | ⟨-, short⟩
  · rw [found] at read
    cases read
    exact ⟨same, rfl⟩
  · rw [missed] at read
    cases read
  · rw [short] at read
    cases read

end Production

def Node.bound? : Node → Option Name
  | binding name _ _ => some name
  | _ => none

namespace Grammar

open Production

def names (tokens : List Token) : List Name :=
  (tokens.filter (·.kind = .ident)).map nameOf

theorem names_cons {token : Token} {tokens : List Token} (kind : token.kind = .ident) :
    names (token :: tokens) = nameOf token :: names tokens := by
  simp [names, kind]

theorem names_sublist {tokens others : List Token} (part : tokens.Sublist others) :
    (names tokens).Sublist (names others) :=
  (part.filter _).map nameOf

theorem mem_names {tokens : List Token} {name : Name} (member : name ∈ names tokens) :
    ∃ token ∈ tokens, token.kind = .ident ∧ nameOf token = name := by
  simpa [names, and_assoc] using member

section Statements

variable {nested : Nat → Power → Production Node} {frames : Nat} {cursor after : Cursor} {node : Node}

theorem read_ended (sound : Sound nested) {make : Node → Node}
    (read : (do let value ← nested frames .lowest; accept .semicolon; pure (make value) : Production Node)
      cursor = .read node after) : (∃ value, node = make value) ∧ cursor.Leads after := by
  rcases Outcome.read_of_bind read with ⟨value, middle, inner, read⟩
  rcases Outcome.read_of_bind read with ⟨_, _, ending, read⟩
  cases read
  have expression := sound frames .lowest (by decide) (by decide) cursor
  rw [inner] at expression
  have closing := accept_yields .semicolon (by decide) middle
  rw [ending] at closing
  exact ⟨⟨value, rfl⟩, expression.1.trans closing.1⟩

theorem binding_bound (sound : Sound nested) (read : binding nested frames cursor = .read node after) :
    (node.bound?.toList ++ names after.advance.tokens).Sublist (names cursor.tokens) := by
  rcases Outcome.read_of_bind read with ⟨_, _, identifier, read⟩
  rcases expected identifier with ⟨named, rfl⟩
  simp only [bind_apply, current_apply, Outcome.read_bind] at read
  rcases Outcome.read_of_bind read with ⟨_, _, assign, read⟩
  rcases expected assign with ⟨-, rfl⟩
  rcases read_ended sound read with ⟨⟨value, rfl⟩, leads⟩
  have kind : cursor.advance.current.kind = .ident := named
  have name : cursor.advance.tokens = cursor.advance.current :: cursor.advance.tokens.tail := by
    apply cursor.advance.tokens_of_current
    rw [kind]
    decide
  have behind : (cursor.advance.current :: after.advance.tokens).Sublist cursor.advance.tokens := by
    rw [name]
    exact (Cursor.Leads.refl.advance.advance.trans leads).suffix.sublist.tail.cons_cons _
  have listed := names_sublist (behind.trans (List.tail_sublist _))
  rw [names_cons kind] at listed
  exact listed

theorem statement_bound (sound : Sound nested) (read : statement nested frames cursor = .read node after) :
    (node.bound?.toList ++ names after.advance.tokens).Sublist (names cursor.tokens) := by
  rw [statement] at read
  have read := read_of_room read
  simp only [bind_apply, current_apply, Outcome.read_bind] at read
  cases kind : cursor.current.kind <;> simp only [kind] at read
  case letWord => exact binding_bound sound read
  case returnWord =>
      rw [returning] at read
      have read := read_of_room read
      rcases read_ended sound read with ⟨⟨value, rfl⟩, leads⟩
      exact names_sublist (Cursor.Leads.refl.advance.trans leads).advance.suffix.sublist
  all_goals
    rcases read_ended sound read with ⟨⟨value, rfl⟩, leads⟩
    exact names_sublist leads.advance.suffix.sublist

/-- The names that statements bind are tokens in the order of the stream. -/
theorem statements_bound (sound : Sound nested) (fuel : Nat) (cursor : Cursor) {nodes : List Node}
    (read : statements nested frames fuel cursor = .read nodes after) :
    (nodes.filterMap Node.bound?).Sublist (names cursor.tokens) := by
  induction fuel generalizing cursor nodes with
  | zero => cases read
  | succ fuel ih =>
      rw [statements_succ] at read
      split at read
      · cases read
        exact List.nil_sublist _
      cases first : statement nested frames cursor with
      | read node middle =>
          rw [first] at read
          rcases Outcome.read_of_bind read with ⟨rest, _, others, read⟩
          cases read
          have split : (node :: rest).filterMap Node.bound? =
              node.bound?.toList ++ rest.filterMap Node.bound? := by
            rw [List.filterMap_cons]
            cases node.bound? <;> rfl
          rw [split]
          exact ((ih middle.advance others).append_left _).trans (statement_bound sound first)
      | failed middle =>
          rw [first] at read
          have yields := statement_yields sound frames cursor
          rw [first] at yields
          have leads := yields.1.trans middle.resume_leads.advance
          exact (ih _ read).trans (names_sublist leads.suffix.sublist)
      | tooDeep | abandoned =>
          rw [first] at read
          cases read

end Statements

theorem readTokens_bound {limit : Nat} {tokens : List Token} {reading : Reading}
    (read : readTokens limit tokens = .ok reading) :
    (reading.statements.filterMap Node.bound?).Sublist (names tokens) := by
  cases result : program limit tokens with
  | read nodes after =>
      rw [readTokens_of_read result] at read
      cases read
      exact statements_bound (expression_sound _ _) _ _ result
  | failed after => exact absurd result (statements_unfailed _ _ _ _ _)
  | tooDeep after =>
      rw [readTokens_of_tooDeep result] at read
      cases read
      exact List.nil_sublist _
  | abandoned error =>
      rw [readTokens_of_abandoned result] at read
      cases read

end Grammar

namespace Symbol

def Before (symbol later : Symbol) : Prop :=
  symbol.line < later.line ∨ symbol.line = later.line ∧ symbol.column < later.column

def bound (symbol : Symbol) : Name := ⟨symbol.name, symbol.line + 1, symbol.column⟩

end Symbol

namespace Outline

theorem symbolOf?_bound (uri : String) (node : Node) :
    (symbolOf? uri node).map Symbol.bound = node.bound? := by
  unfold symbolOf? Node.bound?
  split <;> simp [Symbol.bound]

theorem read_of_reading {text : String} {reading : Reading}
    (tree : Grammar.read standardLimit text = .ok reading) (uri : String) :
    read uri text = .ok (ofReading uri text reading) := by
  rw [Outline.read, tree]
  rfl

theorem read_named {uri text : String} {outline : Outline} (read : read uri text = .ok outline) :
    (outline.symbols.map Symbol.bound).Sublist (Grammar.names (Token.scan text)) := by
  rw [Outline.read] at read
  cases tree : Grammar.read standardLimit text with
  | error error =>
      rw [tree] at read
      cases read
  | ok reading =>
      rw [tree] at read
      cases read
      have bound := Grammar.readTokens_bound tree
      simp only [← symbolOf?_bound uri, ← List.map_filterMap] at bound
      exact bound

theorem read_ascending {uri text : String} {outline : Outline} (read : read uri text = .ok outline) :
    outline.symbols.Pairwise Symbol.Before := by
  have names : (Grammar.names (Token.scan text)).Pairwise fun name later =>
      (⟨name.line, name.column⟩ : Place).Before ⟨later.line, later.column⟩ :=
    List.pairwise_map.mpr (((Token.scan_occurs text).1.imp Token.Precedes.before).filter _)
  have symbols := List.pairwise_map.mp (names.sublist (read_named read))
  exact symbols.imp fun before =>
    before.imp Int.lt_of_add_lt_add_right (And.imp_left (Int.add_left_inj 1).mp)

end Outline

end Marmoset
