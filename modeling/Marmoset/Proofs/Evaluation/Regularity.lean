import Marmoset.Proofs.Evaluation.Growth
import Marmoset.Proofs.Evaluation.Invariant
import Marmoset.Proofs.Grammar.Formation
import Marmoset.Proofs.Session.Runs
import Marmoset.Proofs.Value.Regular

/-!
Values stay regular. As long as no value on the way holds a string or an array of 2^63 elements, every
evaluation of a well-formed node leaves regular values in every scope and gives one. So whatever is read
and run one after another, the store and the results are regular.
-/

namespace Marmoset

namespace Machine

def Regular (machine : Machine) : Prop :=
  ∀ (id : ScopeId) (scope : Scope), machine.scopes[id]? = some scope →
    ∀ binding ∈ scope.bindings, binding.2.Stored

variable {machine : Machine}

theorem Regular.bind (regular : machine.Regular) (own : ScopeId) (name : String) {value : Value}
    (stored : value.Stored) : (machine.bind own name value).Regular := by
  intro id scope there binding member
  rcases scope_of_bind there with ⟨before, there, -, bindings⟩
  rcases bindings binding member with rfl | old
  · exact stored
  · exact regular id before there binding old

theorem Regular.addScope (regular : machine.Regular) (outer : Option ScopeId) :
    (machine.addScope outer).2.Regular := by
  intro id scope there binding member
  rcases scope_of_addScope there with ⟨-, rfl⟩ | there
  · cases member
  · exact regular id scope there binding member

theorem Regular.lookup (regular : machine.Regular) {scope : ScopeId} {name : String} {value : Value}
    (found : machine.lookup scope name = some value) : value.Stored := by
  rcases search_bound found with ⟨id, scope, there, bound⟩
  exact regular id scope there _ bound

end Machine

def Act.value? : Act → Option Value
  | left (.ok value) => some value
  | _ => none

namespace Chronicle

variable {α : Type}

/-- No value on the way holds a string or an array of 2^63 elements. -/
def Short (chronicle : Chronicle α) : Prop := ∀ act ∈ chronicle.acts, ∀ value ∈ act.value?, value.Short

instance (chronicle : Chronicle α) : Decidable chronicle.Short := inferInstanceAs (Decidable (∀ _ ∈ _, _))

end Chronicle

namespace Evaluation

def regularity : Invariant where
  World := Unit
  perform _ _ := ()
  machine _ := Machine.Regular
  scope _ _ := True
  value _ := Value.Stored
  node _ _ node := node.wellFormed = true
  body body := body.wellFormed = true
  writes _ _ _ := True
  quiet _ := True
  marked := True
  reaches _ := False
  granted := Value.Short
  permits _ _ := True

theorem written_whole {world : Unit} {entries : Entries} (written : regularity.Written world entries) :
    entries.Whole := by
  induction written with
  | none => exact Entries.whole_nil
  | write before keyed stored ih => exact ih.write keyed stored

theorem regularity_closed : regularity.Closed where
  value_kept _ := id
  node_kept _ := id
  writes_kept _ := id
  node_scope _ := trivial
  operand formed member := ⟨Node.every_child formed (Node.operand_child member), trivial⟩
  tail formed member := ⟨Node.every_child formed (Node.tail_child member), fun _ => trivial⟩
  program formed member := Node.every_child formed (Node.enclosed_child member)
  function formed := Node.every_child formed (Node.enclosed_child List.mem_cons_self)
  binding _ := trivial
  integer formed := Value.stored_integer (Node.literal_inRange formed)
  returning _ _ := trivial
  foreign formed := by cases Node.every_own formed
  contents := Value.Stored.contents
  captured stored := ⟨stored.whole.own.2 _ rfl, trivial⟩
  computed := Value.stored_computed
  counted _ short := Value.stored_integer short.extent
  found _ regular _ _ found := regular.lookup found
  added regular _ := ⟨⟨trivial, regular.addScope _⟩, fun _ => trivial, id⟩
  bound regular _ stored := ⟨trivial, regular.bind _ _ stored⟩
  made regular contents := by
    refine ⟨⟨trivial, regular⟩, fun _ => ?_⟩
    cases contents with
    | array inside => exact Value.stored_array inside
    | hash written => exact (written_whole written).hash _
    | function formed _ => exact Value.stored_function formed
    | returned inside => exact Value.stored_returned inside
  printed _ regular := ⟨trivial, regular⟩
  entered _ regular _ := ⟨trivial, regular⟩
  left regular _ := ⟨trivial, regular⟩

/-- The evaluation of a well-formed node on a regular machine leaves a regular one and gives a value all of
whose parts are regular; it does not stop at a leaf that is no form of the language. -/
theorem evaluate_regular (frames : Nat) (scope : ScopeId) {node : Node} {machine : Machine}
    (formed : node.wellFormed = true) (regular : machine.Regular)
    (short : (chronicle frames scope node machine).Short) :
    ((evaluate frames scope node).outcome machine).2.Regular ∧
      (∀ leaf, ((evaluate frames scope node).outcome machine).1 ≠ .error (.unknownNode leaf)) ∧
      ∀ value, ((evaluate frames scope node).outcome machine).1 = .ok value → value.Whole := by
  have tells := regularity_closed.evaluation () frames scope node formed regular
    fun value member => short _ member value rfl
  rw [evaluate_outcome]
  refine ⟨tells.machine, tells.reaches, fun value result => ?_⟩
  cases tells.gives value result with
  | error fault => exact Value.whole_error fault
  | value stored => exact stored.whole
  | returned unmarked => exact absurd trivial unmarked

end Evaluation

namespace Session

/-- The sessions that come about when programs that were read are run one after another in a new session,
with the results so far. No value on the way holds a string or an array of 2^63 elements. -/
inductive Reached (limit : Nat) : Session → List (Except Failure Value) → Prop
  | fresh : Reached limit (.fresh limit) []
  | run {session : Session} {results : List (Except Failure Value)} {reading : Reading} {size : Nat}
      (before : Reached limit session results) (source : String)
      (read : Grammar.read size source = .ok reading)
      (short : (Evaluation.chronicle session.limit session.root reading.program session.machine).Short) :
      Reached limit (session.evaluate reading.program).2
        (results ++ [(session.evaluate reading.program).1])

theorem fresh_regular (limit : Nat) : (fresh limit).machine.Regular := by
  intro id scope there binding bound
  rcases Machine.scope_of_addScope there with ⟨-, rfl⟩ | there
  · cases bound
  · simp [Machine.empty] at there

theorem evaluate_regular {session : Session} {program : Node} (formed : program.wellFormed = true)
    (regular : session.machine.Regular)
    (short : (Evaluation.chronicle session.limit session.root program session.machine).Short) :
    (session.evaluate program).2.machine.Regular ∧
      ∃ value, (session.evaluate program).1 = .ok value ∧ value.Whole := by
  rcases Evaluation.evaluate_regular session.limit session.root formed regular short with
    ⟨after, known, whole⟩
  rw [evaluate_eq]
  refine ⟨after, ?_⟩
  rcases Stop.shown_known known with ⟨value, shown⟩
  refine ⟨value, shown, ?_⟩
  rcases Stop.shown_ok shown with result | ⟨reason, rfl⟩
  · exact whole value result
  · exact Value.whole_error reason

theorem Reached.regular {limit : Nat} {session : Session} {results : List (Except Failure Value)}
    (reached : Reached limit session results) : session.machine.Regular ∧
      ∀ result ∈ results, ∃ value, result = .ok value ∧ value.Whole := by
  induction reached with
  | fresh => exact ⟨fresh_regular limit, nofun⟩
  | run before source read short ih =>
      have formed := Grammar.readTokens_formed (scan_valid source) read
      rcases evaluate_regular formed ih.1 short with ⟨regular, value, shown, whole⟩
      refine ⟨regular, List.forall_mem_append.mpr ⟨ih.2, ?_⟩⟩
      rw [List.forall_mem_singleton]
      exact ⟨value, shown, whole⟩

/-- Whatever was read and run, every scope binds values that are no errors and all of whose parts are
regular, and every result is a value all of whose parts are. -/
theorem values_stay_regular (limit : Nat) (session : Session) (results : List (Except Failure Value))
    (reached : Reached limit session results) :
    (∀ (id : ScopeId) (scope : Scope), session.machine.scopes[id]? = some scope →
        ∀ binding ∈ scope.bindings, binding.2.isError = false ∧
          ∀ part ∈ binding.2.parts, part.Regular) ∧
      ∀ result ∈ results, ∃ value, result = .ok value ∧ ∀ part ∈ value.parts, part.Regular := by
  rcases reached.regular with ⟨regular, shown⟩
  constructor
  · intro id scope there binding bound
    have stored := regular id scope there binding bound
    exact ⟨stored.proper, fun part inside => (stored.whole part inside).1⟩
  · intro result member
    rcases shown result member with ⟨value, same, whole⟩
    exact ⟨value, same, fun part inside => (whole part inside).1⟩

/-- A sum that leaves the range is stored under a key that was written before. -/
theorem overwritten_entry_regular :
    let value : Value := .hash 0 [(.string "k", .integer (-0x8000000000000000))]
    let session : Session := { fresh 30 with machine := ⟨#[⟨[("h", value)], none⟩], 1, ""⟩ }
    Reached 30 session [.ok value] ∧ value.isError = false ∧ ∀ part ∈ value.parts, part.Regular := by
  intro value session
  let source := "let h = \x7b\"k\": len(\"ab\"), \"k\": 9223372036854775807 + 1\x7d; h"
  let sum : Node := .binary (.integer 9223372036854775807 1) .add (.integer 1 1) 1
  let length : Node := .call (.identifier ⟨"len", 1, 14⟩) [.string "ab" 1] 1
  let reading : Reading := ⟨[.binding ⟨"h", 1, 4⟩ (.map [(.string "k" 1, length), (.string "k" 1, sum)] 1) 1,
    .statement (.identifier ⟨"h", 1, 56⟩) 1], []⟩
  have read : Grammar.read 30 source = .ok reading := by
    unfold source
    rfl
  have short : (Evaluation.chronicle 30 0 reading.program (fresh 30).machine).Short := by
    decide +kernel
  have reached : Reached 30 session [.ok value] := .run .fresh source read short
  refine ⟨reached, ?_⟩
  exact (values_stay_regular 30 session [.ok value] reached).1 0 _ rfl ("h", value) List.mem_cons_self

end Session

end Marmoset
