import Marmoset.Proofs.Evaluation.NodeRule
import Marmoset.Proofs.Grammar.Formation

/-!
Evaluation of what was read is safe. A program that was read, with or without a report, is well formed;
and where the functions in reach have well-formed bodies, no evaluation on the way meets a leaf that is
no form of the language, or an operator that has no meaning where it stands.
-/

namespace Marmoset

def NodeRule.formed : NodeRule where
  node node := node.wellFormed = true
  quiet _ := True
  body body := body.wellFormed = true
  marked := True
  called := id
  operand := fun formed member => ⟨Node.every_child formed (Node.operand_child member), trivial⟩
  tail := fun formed member =>
    ⟨Node.every_child formed (Node.tail_child member), fun _ => trivial⟩
  program := fun formed member => Node.every_child formed (Node.enclosed_child member)
  function := fun formed => Node.every_child formed (Node.enclosed_child List.mem_cons_self)
  returning := fun _ _ => trivial
  foreign := fun formed => nomatch Node.every_own formed

theorem NodeRule.formed_part (part : Value) :
    NodeRule.formed.part part ↔ ∀ body ∈ part.body?, body.wellFormed = true := by
  cases part <;> simp [NodeRule.part, Value.body?, NodeRule.formed]

namespace Evaluation

/-- The node is a form of the language, and its operator has a meaning where it stands. -/
def Meaningful (node : Node) : Prop := (∀ leaf, node ≠ .foreign leaf) ∧ node.operated = true

theorem meaningful_of_wellFormed {node : Node} (formed : node.wellFormed = true) : Meaningful node := by
  have own := Node.every_own formed
  simp only [Node.formed, Bool.and_eq_true] at own
  refine ⟨?_, own.1.2⟩
  rintro leaf rfl
  cases own.1.1

/-- A source whose integer literals have at most 4300 digits is read as a well-formed program, with or
without a report. Where the functions in reach have well-formed bodies, evaluating it does not stop at a
leaf that is no form of the language, and every evaluation on the way is of a meaningful node. -/
theorem read_program_safe (limit : Nat) (source : String)
    (short : ∀ token ∈ Token.scan source, token.kind = .int → token.literal.length ≤ 4300) :
    ∃ reading, Grammar.read limit source = .ok reading ∧ reading.program.wellFormed = true ∧
      ∀ (frames : Nat) (scope : ScopeId) (machine : Machine),
        machine.SeesOnly scope (fun part => ∀ body ∈ part.body?, body.wellFormed = true) →
        (∀ leaf, ((evaluate frames scope reading.program).outcome machine).1 ≠
          .error (.unknownNode leaf)) ∧
        ∀ left own inner,
          .entered left own inner ∈ (chronicle frames scope reading.program machine).acts →
            Meaningful inner := by
  rcases Grammar.read_formed limit source short with ⟨reading, read, formed⟩
  refine ⟨reading, read, formed, ?_⟩
  intro frames scope machine only
  have kept := (only.mono fun part => (NodeRule.formed_part part).mpr).kept
  have inside : (Region.of machine scope).inside scope := .inl .own
  refine ⟨(kept.evaluate frames inside formed).2, fun left own inner member => ?_⟩
  have tells := (NodeRule.formed.keeping_closed _).evaluation () frames scope _ ⟨inside, formed⟩ kept
    fun _ _ => trivial
  rcases List.append_of_mem member with ⟨earlier, later, shape⟩
  exact meaningful_of_wellFormed ((tells.moment earlier _ later shape).2 left own inner rfl).2

/-- A binding fails, and behind it a function from the scope is called. -/
theorem failed_binding_safe :
    let source := "let 1; -f(2);"
    let body := Node.block [.statement (.unary .not (.identifier ⟨"x", 1, 0⟩) 1) 1] 1
    let machine : Machine := ⟨#[⟨[("f", .function 0 [⟨"x", 1, 0⟩] body 0)], none⟩], 1, ""⟩
    (∀ token ∈ Token.scan source, token.kind = .int → token.literal.length ≤ 4300) ∧
      machine.SeesOnly 0 (fun part => ∀ body ∈ part.body?, body.wellFormed = true) ∧
      ∃ reading, Grammar.read 1000 source = .ok reading ∧
        reading.diagnostics = [⟨.expected .ident .int, 1⟩] ∧ reading.program.wellFormed = true ∧
        (∀ leaf, ((evaluate 1000 0 reading.program).outcome machine).1 ≠ .error (.unknownNode leaf)) ∧
        ∀ left own inner,
          .entered left own inner ∈ (chronicle 1000 0 reading.program machine).acts →
            Meaningful inner := by
  intro source body machine
  have short : ∀ token ∈ Token.scan source, token.kind = .int → token.literal.length ≤ 4300 := by
    decide
  have only : machine.SeesOnly 0 (fun part => ∀ body ∈ part.body?, body.wellFormed = true) := by
    intro id scope seen there binding bound part inside inner own
    have same : scope = ⟨[("f", .function 0 [⟨"x", 1, 0⟩] body 0)], none⟩ := by
      simpa [machine, eq_comm] using (List.mem_of_getElem? (Array.getElem?_toList.trans there))
    subst same
    simp only [List.mem_singleton] at bound
    subst bound
    simp only [Value.parts, List.mem_singleton] at inside
    subst inside
    cases own
    decide
  rcases read_program_safe 1000 source short with ⟨reading, read, formed, safe⟩
  have reported : reading.diagnostics = [⟨.expected .ident .int, 1⟩] := by
    have known : (Grammar.read 1000 source).map Reading.diagnostics =
        .ok [⟨.expected .ident .int, 1⟩] := by decide
    rw [read] at known
    exact Except.ok.inj known
  exact ⟨short, only, reading, read, reported, formed, safe 1000 0 machine only⟩

end Evaluation

end Marmoset
