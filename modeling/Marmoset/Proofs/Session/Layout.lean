import Marmoset.Proofs.Evaluation.Layout
import Marmoset.Proofs.Grammar.Layout
import Marmoset.Proofs.Session.Runs

/-!
Sources that differ in layout only, so that their tokens have the same classes and literals, are read
as the same program and run to the same end. The places of tokens are recorded in trees, diagnostics
and functions, but nothing depends on them.
-/

namespace Marmoset

theorem Stop.shown_bare (result : Except Stop Value) :
    shown (result.map Value.bare) = (shown result).map Value.bare := by
  cases result with
  | ok value => rfl
  | error stop => cases stop <;> rfl

namespace Session

def bare (session : Session) : Session := { session with machine := session.machine.bare }

def plain (left : Except Failure Value × Session) : Except Failure Value × Session :=
  (left.1.map Value.bare, left.2.bare)

theorem evaluate_bare (session : Session) (node : Node) :
    session.bare.evaluate node.bare = plain (session.evaluate node) := by
  have erased := Evaluation.evaluate_bare session.limit session.root node session.machine
  rw [evaluate_eq, evaluate_eq]
  simp only [bare, plain, erased, Stop.shown_bare]

theorem evaluate_alike {first second : Session} (same : first.bare = second.bare) {node other : Node}
    (shape : node.bare = other.bare) : plain (first.evaluate node) = plain (second.evaluate other) := by
  rw [← evaluate_bare, ← evaluate_bare, same, shape]

end Session

/-- Sources of the same classes and literals have readings of the same shape with the same problems, or
the same literal gives no integer in both; and where nothing is found wrong, running them in sessions
that differ in places only gives results, bindings and printed text that differ in places only. -/
theorem layout_immaterial {first second : String}
    (same : List.Forall₂ Token.Alike (Token.scan first) (Token.scan second)) :
    (∀ limit,
      (∃ error, Grammar.read limit first = .error error ∧ Grammar.read limit second = .error error) ∨
        ∃ reading reading', Grammar.read limit first = .ok reading ∧
          Grammar.read limit second = .ok reading' ∧ reading.Alike reading') ∧
    ∀ session session' : Session, session.bare = session'.bare →
      (∀ reading, Grammar.read session.limit first = .ok reading → reading.diagnostics = []) →
      Session.plain (session.run first) = Session.plain (session'.run second) := by
  constructor
  · intro limit
    exact Grammar.readTokens_alike limit same
  · intro session session' start clean
    have limits : session.bare.limit = session'.bare.limit := congrArg Session.limit start
    change session.limit = session'.limit at limits
    rcases Grammar.readTokens_alike session.limit same with
      ⟨error, read, read'⟩ | ⟨⟨nodes, problems⟩, ⟨nodes', problems'⟩, read, read', alike⟩
    · rw [limits] at read'
      rw [Session.run_of_malformed read, Session.run_of_malformed read', Session.plain, Session.plain,
        start]
    · obtain rfl : problems = [] := clean _ read
      obtain rfl : problems' = [] := List.map_eq_nil_iff.mp alike.problems.symm
      rw [limits] at read'
      rw [Session.run_of_clean read, Session.run_of_clean read']
      exact Session.evaluate_alike start alike.shape

/-- A function, bound and printed on one line and on several, run in a new session. -/
theorem spread_binding_immaterial :
    let first := "let f = fn(x) \x7b x \x7d; puts(f);"
    let second := "let f =\n  fn (x)\n  \x7bx\x7d ;\n\nputs( f )\t;"
    List.Forall₂ Token.Alike (Token.scan first) (Token.scan second) ∧
      (Grammar.read standardLimit first).map Reading.diagnostics = .ok [] ∧
      Session.plain (Session.new.run first) = Session.plain (Session.new.run second) := by
  intro first second
  have same : List.Forall₂ Token.Alike (Token.scan first) (Token.scan second) := by decide
  have clean : (Grammar.read standardLimit first).map Reading.diagnostics = .ok [] := by decide
  refine ⟨same, clean, (layout_immaterial same).2 _ _ rfl fun reading read => ?_⟩
  have known : (Grammar.read standardLimit first).map Reading.diagnostics = .ok reading.diagnostics :=
    congrArg _ read
  rw [clean] at known
  exact (Except.ok.inj known).symm

end Marmoset
