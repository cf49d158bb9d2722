import Marmoset.Proofs.Grammar.Locality
import Marmoset.Tree.Shape

/-!
Reading does not look at places. Two lists whose tokens have the same classes and literals are read as
trees of the same shape, with the same problems in the same order.
-/

namespace Marmoset

open Grammar

/-- Two tokens have the same class and literal, wherever they stand. -/
def Token.Alike (first second : Token) : Prop :=
  second.kind = first.kind ∧ second.literal = first.literal

instance (first second : Token) : Decidable (first.Alike second) :=
  inferInstanceAs (Decidable (_ ∧ _))

namespace Node

theorem bareAll_eq {first second : List Node}
    (same : List.Forall₂ (fun one other => one.bare = other.bare) first second) :
    bareAll first = bareAll second := by
  induction same with
  | nil => rfl
  | cons head _ ih => rw [bareAll, bareAll, head, ih]

theorem barePairs_eq {first second : List (Node × Node)}
    (same : List.Forall₂ (fun pair other => pair.1.bare = other.1.bare ∧ pair.2.bare = other.2.bare)
      first second) : barePairs first = barePairs second := by
  induction same with
  | nil => rfl
  | cons head _ ih => rw [barePairs, barePairs, head.1, head.2, ih]

end Node

theorem bareNames_eq {first second : List Name}
    (same : List.Forall₂ (fun one other => one.bare = other.bare) first second) :
    first.map Name.bare = second.map Name.bare := by
  induction same with
  | nil => rfl
  | cons head _ ih => rw [List.map_cons, List.map_cons, head, ih]

def Congruence.layout : Congruence where
  token := Token.Alike
  name first second := first.bare = second.bare
  expression first second := first.bare = second.bare
  block first second := first.bare = second.bare
  statement first second := first.bare = second.bare
  kind := And.left
  literal := And.right
  named := fun same _ => by rw [Name.bare, Name.bare, nameOf, nameOf, same.2]
  identifier := fun name => by rw [Node.bare, Node.bare, name]
  integer := fun _ _ _ _ => rfl
  string := fun same _ => by rw [Node.bare, Node.bare, same.2]
  boolean := fun _ _ => rfl
  array := fun _ elements => by rw [Node.bare, Node.bare, Node.bareAll_eq elements]
  map := fun _ pairs => by rw [Node.bare, Node.bare, Node.barePairs_eq pairs]
  unary := fun _ _ operand => by rw [Node.bare, Node.bare, operand]
  binary := fun _ _ left right => by rw [Node.bare, Node.bare, left, right]
  conditional := by
    intro first second condition condition' chosen chosen' rejected rejected' _ test block other
    cases other with
    | none => rw [Node.bare, Node.bare, test, block]
    | some inner => rw [Node.bare, Node.bare, test, block, inner]
  function := fun _ names body => by rw [Node.bare, Node.bare, bareNames_eq names, body]
  call := fun _ callee arguments => by
    rw [Node.bare, Node.bare, callee, Node.bareAll_eq arguments]
  index := fun _ container position => by rw [Node.bare, Node.bare, container, position]
  braces := fun _ statements => by rw [Node.bare, Node.bare, Node.bareAll_eq statements]
  binding := fun _ target value => by rw [Node.bare, Node.bare, target, value]
  returning := fun _ value => by rw [Node.bare, Node.bare, value]
  bare := fun _ value => by rw [Node.bare, Node.bare, value]

/-- Two cursors on lists of the same classes and literals, with the same braces open and the same
problems found. -/
structure Cursor.Alike (left right : Cursor) : Prop where
  tokens : List.Forall₂ Token.Alike left.tokens right.tokens
  depth : right.depth = left.depth
  problems : left.diagnostics.map Diagnostic.problem = right.diagnostics.map Diagnostic.problem

namespace Cursor

theorem headKind_alike {first second : List Token} (same : List.Forall₂ Token.Alike first second) :
    headKind second = headKind first := by
  cases same with
  | nil => rfl
  | cons head _ => exact head.1

theorem head_alike {first second : List Token} (same : List.Forall₂ Token.Alike first second)
    (line line' : Int) : (first.headD (.ending line)).Alike (second.headD (.ending line')) := by
  cases same with
  | nil => exact ⟨rfl, rfl⟩
  | cons head _ => exact head

theorem tail_alike {first second : List Token} (same : List.Forall₂ Token.Alike first second) :
    List.Forall₂ Token.Alike first.tail second.tail := by
  cases same with
  | nil => exact .nil
  | cons _ rest => exact rest

theorem skip_alike {first second : List Token} (same : List.Forall₂ Token.Alike first second)
    (opened : Nat) (depth : Int) : (skip opened depth second).1 = (skip opened depth first).1 ∧
      List.Forall₂ Token.Alike (skip opened depth first).2 (skip opened depth second).2 := by
  induction same generalizing opened depth with
  | nil => exact ⟨rfl, .nil⟩
  | cons head rest ih =>
      rw [skip_token, skip_token, head.1, headKind_alike rest]
      split
      · exact ⟨rfl, .cons head rest⟩
      split
      · exact ⟨rfl, .cons head rest⟩
      · exact ih _ _

namespace Alike

variable {left right : Cursor}

theorem current (same : left.Alike right) : left.current.Alike right.current :=
  head_alike same.tokens _ _

theorem peek (same : left.Alike right) : left.peek.Alike right.peek :=
  head_alike (tail_alike same.tokens) _ _

theorem advance (same : left.Alike right) : left.advance.Alike right.advance := by
  refine ⟨tail_alike same.tokens, ?_, same.problems⟩
  rw [Cursor.advance, Cursor.advance, same.depth, same.peek.1]

theorem report (same : left.Alike right) (problem : Problem) (line line' : Int) :
    (left.report problem line).Alike (right.report problem line') := by
  rcases same with ⟨tokens, depth, problems⟩
  refine ⟨tokens, depth, ?_⟩
  rw [report_diagnostics, report_diagnostics, List.map_append, List.map_append, problems]
  rfl

theorem resume (same : left.Alike right) : left.resume.Alike right.resume := by
  rcases same with ⟨tokens, depth, problems⟩
  have passed := skip_alike tokens 0 left.depth
  rw [Cursor.resume, Cursor.resume, depth]
  exact ⟨passed.2, passed.1, problems⟩

end Alike

end Cursor

def Track.layout : Track .layout where
  near := Cursor.Alike
  onward := True
  braced := True
  scarce := False
  current := fun same => same.current
  peek := fun same _ => same.peek
  advance := fun same _ => same.advance
  report := fun problem same _ => same.report problem _ _
  depth := by
    intro left right before behind same same'
    rw [same.depth, same'.depth]
  opened := fun _ _ => trivial
  behind := fun _ same => .inl same.advance
  resumed := fun _ same => .inl same.resume.advance

/-- Two readings have the same shape, and the same problems were found. -/
structure Reading.Alike (first second : Reading) : Prop where
  shape : first.program.bare = second.program.bare
  problems : first.diagnostics.map Diagnostic.problem = second.diagnostics.map Diagnostic.problem

namespace Grammar

/-- Lists of the same classes and literals have readings that are alike, or the same literal gives no
integer in both. -/
theorem readTokens_alike (limit : Nat) {first second : List Token}
    (same : List.Forall₂ Token.Alike first second) :
    (∃ error, readTokens limit first = .error error ∧ readTokens limit second = .error error) ∨
      ∃ reading reading', readTokens limit first = .ok reading ∧
        readTokens limit second = .ok reading' ∧ reading.Alike reading' := by
  have near : (Cursor.ofTokens first).Alike (.ofTokens second) :=
    ⟨same, by rw [Cursor.ofTokens, Cursor.ofTokens, Cursor.headKind_alike same], rfl⟩
  have length := same.length_eq
  have abreast := program_abreast .layout trivial trivial limit limit (.inl rfl) (second.length + 1)
    (second.length + 1) near (by omega) (by omega)
  generalize result : program limit first = one at abreast
  have other : program limit second =
    statements (expression (second.length + 1) limit) (limit - 2) (second.length + 1)
      (.ofTokens second) := rfl
  rw [← other] at abreast
  generalize result' : program limit second = two at abreast
  cases abreast with
  | read nodes near few _ =>
      refine .inr ⟨_, _, readTokens_of_read result, readTokens_of_read result', ?_, near.problems⟩
      simp only [Reading.program, Node.bare, Node.bareAll_eq nodes]
  | failed near few => exact absurd result (statements_unfailed _ _ _ _ _)
  | tooDeep near =>
      refine .inr ⟨_, _, readTokens_of_tooDeep result, readTokens_of_tooDeep result', rfl, ?_⟩
      simp only [List.map_append, near.problems, List.map_cons, List.map_nil]
  | scarce never => exact never.elim
  | abandoned near kind malformed =>
      exact .inl ⟨_, readTokens_of_abandoned result, readTokens_of_abandoned result'⟩
  | parted parts void => exact absurd trivial parts.2

end Grammar

end Marmoset
