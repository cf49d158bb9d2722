import Marmoset.Proofs.Session.Layout
import Marmoset.Proofs.Token.Joint

/-!
A program run in pieces. When the first piece ends its last statement and all its statements run, the
second piece behind it is scanned, read and evaluated as it is alone, further down: running the two one
after the other is running them as one source.
-/

namespace Marmoset

open Eval

namespace Evaluation

variable {frames : Nat} {scope : ScopeId} {before after : Machine} {nodes : List Node}

/-- Statements that are all run: each of them has a value, and none of these is an error or a return
marker. -/
inductive Completes (frames : Nat) (scope : ScopeId) : Machine → List Node → Machine → Prop
  | none (machine : Machine) : Completes frames scope machine [] machine
  | next {before middle after : Machine} {node : Node} {nodes : List Node} {value : Value}
    (ran : (evaluate frames scope node).outcome before = (.ok value, middle))
    (onward : value.isReturned = false) (proper : value.isError = false)
    (rest : Completes frames scope middle nodes after) :
    Completes frames scope before (node :: nodes) after

theorem sequence_cons_run (last : Value) (node : Node) (nodes : List Node) :
    (sequence scope last (node :: nodes)).run evaluate (frames + 1) =
      evaluate frames scope node >>= fun value =>
        if value.isReturned || value.isError then pure value
        else (sequence scope value nodes).run evaluate (frames + 1) := by
  change (evaluate frames scope node >>= fun value => Agenda.run evaluate (frames + 1)
    (if value.isReturned || value.isError then pure value else sequence scope value nodes)) = _
  congr
  funext value
  split <;> rfl

theorem Completes.sequence (completes : Completes frames scope before nodes after) (last : Value) :
    ∃ value, ∀ others,
      ((Evaluation.sequence scope last (nodes ++ others)).run evaluate (frames + 1)).outcome before =
        ((Evaluation.sequence scope value others).run evaluate (frames + 1)).outcome after := by
  induction completes generalizing last with
  | none machine => exact ⟨last, fun _ => rfl⟩
  | @next before middle after node nodes value ran onward proper rest ih =>
      rcases ih value with ⟨final, continues⟩
      refine ⟨final, fun others => ?_⟩
      rw [← continues others, List.cons_append, sequence_cons_run, outcome_bind, ran]
      simp only [onward, proper, Bool.or_self, Bool.false_eq_true, if_false]

/-- A program evaluates its statements behind two calls of its own. -/
theorem program_outcome (nodes : List Node) (machine : Machine) :
    (evaluate (frames + 2) scope (.program nodes)).outcome machine =
      (((sequence scope .null nodes).run evaluate (frames + 1)).outcome machine).map
        (Except.map Value.unwrap) id := by
  rw [evaluate_succ]
  change ((pure () >>= fun _ => Agenda.run evaluate (frames + 1)
    (sequence scope .null nodes >>= fun value => pure value.unwrap) : Eval Value)).outcome machine = _
  rw [pure_bind, Agenda.run_bind, outcome_bind]
  rcases ((sequence scope .null nodes).run evaluate (frames + 1)).outcome machine with ⟨stop | value, after⟩
  · rfl
  · rfl

theorem program_completes (completes : Completes frames scope before nodes after) :
    ((evaluate (frames + 2) scope (.program nodes)).outcome before).2 = after := by
  rcases completes.sequence .null with ⟨value, continues⟩
  have alone := continues []
  rw [List.append_nil] at alone
  rw [program_outcome, alone]
  rfl

/-- A program whose first statements are all run is the program of the others on the machine that they
leave. -/
theorem program_append (completes : Completes frames scope before nodes after)
    {others : List Node} (filled : others ≠ []) :
    (evaluate (frames + 2) scope (.program (nodes ++ others))).outcome before =
      (evaluate (frames + 2) scope (.program others)).outcome after := by
  rcases completes.sequence .null with ⟨value, continues⟩
  -- The value of the statements before counts only where no statement follows.
  have unread : sequence scope value others = sequence scope .null others := by
    cases others with
    | nil => exact absurd rfl filled
    | cons node others => rfl
  rw [program_outcome, continues others, unread, program_outcome]

end Evaluation

namespace Token

theorem below_alike (lines : Int) (tokens : List Token) :
    List.Forall₂ Alike tokens (tokens.map (below lines)) := by
  induction tokens with
  | nil => exact .nil
  | cons token tokens ih => exact .cons ⟨rfl, rfl⟩ ih

def Terminated (source : String) : Prop :=
  (scan source).dropLast.getLast?.map kind = some .semicolon

instance (source : String) : Decidable (Terminated source) := inferInstanceAs (Decidable (_ = _))

theorem Terminated.shape {source : String} (terminated : Terminated source) :
    ∃ front semicolon last, scan source = (front ++ [semicolon]) ++ [last] ∧
      semicolon.kind = .semicolon ∧ last.kind = .eof ∧
      ∀ token ∈ front ++ [semicolon], token.kind ≠ .eof := by
  rcases scanFrom_ends 0 .start source.toList with ⟨tokens, last, scan, ends, inside⟩
  rw [Terminated, Token.scan, scan, List.dropLast_concat] at terminated
  rcases Option.map_eq_some_iff.mp terminated with ⟨semicolon, final, kind⟩
  rcases List.getLast?_eq_some_iff.mp final with ⟨front, rfl⟩
  exact ⟨front, semicolon, last, scan, kind, ends, inside⟩

theorem Terminated.closed {source : String} (terminated : Terminated source) :
    ∀ token ∈ scan source, ¬ token.Unclosed := by
  intro token member unclosed
  rcases unclosed_last member unclosed with ⟨front, last, shape⟩
  rw [Terminated, scan, shape, List.append_cons, List.dropLast_concat, List.getLast?_concat] at terminated
  have semicolon : token.kind = .semicolon := Option.some.inj terminated
  rw [unclosed.1] at semicolon
  cases semicolon

end Token

/-- Behind a source that ends with a semicolon and has no diagnostics, another one without diagnostics
is read as it is alone, but for places. -/
theorem Grammar.read_joined {limit : Nat} {first second : String} (terminated : Token.Terminated first)
    {nodes others : List Node} (clean : read limit first = .ok ⟨nodes, []⟩)
    (behind : read limit second = .ok ⟨others, []⟩) :
    ∃ later, read limit (first ++ "\n" ++ second) = .ok ⟨nodes ++ later, []⟩ ∧
      Node.bareAll later = Node.bareAll others := by
  rcases terminated.shape with ⟨front, semicolon, last, shape, kind, ends, inside⟩
  have joined := Token.scan_joined terminated.closed second
  rw [shape, List.dropLast_concat] at joined
  rw [read, shape] at clean
  rw [read, joined]
  generalize (1 + (first.toList.count '\n' : Int)) = lines
  have spent : ∀ token ∈ [last], token.kind = .eof := fun token member =>
    (List.mem_singleton.mp member) ▸ ends
  have short : [last].length ≤ ((Token.scan second).map (Token.below lines)).length := by
    rcases Token.scanFrom_ends 0 .start second.toList with ⟨tokens, mark, scan, -⟩
    simp [Token.scan, scan]
  rcases readTokens_alike limit (Token.below_alike lines (Token.scan second)) with
    ⟨error, failed, -⟩ | ⟨reading, ⟨later, problems⟩, alone, moved, alike⟩
  · rw [read, failed] at behind
    cases behind
  · rw [read, alone] at behind
    cases behind
    obtain rfl : problems = [] := List.map_eq_nil_iff.mp alike.problems.symm
    refine ⟨later, clean_joined rfl kind inside spent short clean moved, ?_⟩
    have same := alike.shape
    simp only [Reading.program, Node.bare, Node.program.injEq] at same
    exact same.symm

namespace Session

/-- Running a source executes all its statements: it has no diagnostics, each statement has a value that
is no error and no return marker, and the stack suffices. -/
def Completes (session : Session) (source : String) : Prop :=
  ∃ frames nodes after, session.limit = frames + 2 ∧
    Grammar.read session.limit source = .ok ⟨nodes, []⟩ ∧
    Evaluation.Completes frames session.root session.machine nodes after

end Session

/-- When a source ends with a semicolon and all its statements are run, running another source without
diagnostics and with a statement behind it gives the result, the bindings and the printed text of
running the two as one source, but for the places inside functions. -/
theorem pieces_run_as_whole (session : Session) (first second : String)
    (terminated : Token.Terminated first) (completes : session.Completes first)
    (clean : ∃ node nodes, Grammar.read session.limit second = .ok ⟨node :: nodes, []⟩) :
    Session.plain ((session.run first).2.run second) =
      Session.plain (session.run (first ++ "\n" ++ second)) := by
  rcases completes with ⟨frames, nodes, after, limit, before, completes⟩
  rcases clean with ⟨node, others, behind⟩
  rcases Grammar.read_joined terminated before behind with ⟨later, whole, shape⟩
  have filled : later ≠ [] := by
    rintro rfl
    cases shape
  have left : (session.run first).2 = { session with machine := after } := by
    rw [Session.run_of_clean before, Session.evaluate_eq, limit]
    rw [Evaluation.program_completes completes]
  have together : session.run (first ++ "\n" ++ second) =
      Session.evaluate { session with machine := after } (.program later) := by
    rw [Session.run_of_clean whole, Session.evaluate_eq, Session.evaluate_eq, limit]
    rw [Evaluation.program_append completes filled]
  have alone : Session.run { session with machine := after } second =
      Session.evaluate { session with machine := after } (.program (node :: others)) :=
    Session.run_of_clean behind
  rw [left, together, alone]
  apply Session.evaluate_alike rfl
  rw [Node.bare, Node.bare, shape]

/-- A function is bound in one piece; the next one calls it, prints and gives it back. -/
theorem binding_then_call_in_pieces :
    let first := "let f = fn(x) \x7b x + 1 \x7d;"
    let second := "puts(f(1)); f"
    Token.Terminated first ∧ Session.new.Completes first ∧
      (∃ node nodes, Grammar.read standardLimit second = .ok ⟨node :: nodes, []⟩) ∧
      Session.plain ((Session.new.run first).2.run second) =
        Session.plain (Session.new.run (first ++ "\n" ++ second)) := by
  intro first second
  have terminated : Token.Terminated first := by decide
  have completes : Session.new.Completes first := by
    let sum : Node := .binary (.identifier ⟨"x", 1, 16⟩) .add (.integer 1 1) 1
    let body : Node := .block [.statement sum 1] 1
    let nodes : List Node := [.binding ⟨"f", 1, 4⟩ (.function [⟨"x", 1, 11⟩] body 1) 1]
    have read : Grammar.read standardLimit first = .ok ⟨nodes, []⟩ := by
      unfold first
      rfl
    have runs : Evaluation.Completes 998 Session.new.root Session.new.machine nodes _ :=
      .next rfl (show Value.null.isReturned = false from rfl) rfl (.none _)
    exact ⟨998, nodes, _, rfl, read, runs⟩
  have clean : ∃ node nodes, Grammar.read standardLimit second = .ok ⟨node :: nodes, []⟩ := by
    unfold second
    exact ⟨_, _, rfl⟩
  exact ⟨terminated, completes, clean,
    pieces_run_as_whole _ first second terminated completes clean⟩

end Marmoset
