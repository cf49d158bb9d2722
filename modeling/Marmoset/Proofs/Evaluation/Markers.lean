import Marmoset.Proofs.Evaluation.Safety
import Marmoset.Proofs.Session.Runs

/-!
Return markers stay inside the evaluator. A return statement leaves a marker, which blocks pass on up to
the call or the program. Where a conditional with a return statement in its blocks is always the whole
expression of a statement, no marker is met by anything else: none is bound, stored, passed or given as a
result, in one run or in many.
-/

namespace Marmoset

namespace Node

def isReturning : Node → Bool
  | returning _ _ => true
  | _ => false

mutual

def returns : Node → Bool
  | returning _ _ => true
  | array elements _ => returnsAny elements
  | map pairs _ => returnsPairs pairs
  | unary _ operand _ => returns operand
  | binary left _ right _ => returns left || returns right
  | conditional condition consequence none _ => returns condition || returns consequence
  | conditional condition consequence (some alternative) _ =>
    returns condition || (returns consequence || returns alternative)
  | call callee arguments _ => returns callee || returnsAny arguments
  | index container position _ => returns container || returns position
  | binding _ value _ => returns value
  | statement expression _ => returns expression
  | block statements _ => returnsAny statements
  | _ => false
termination_by structural node => node

def returnsAny : List Node → Bool
  | [] => false
  | node :: nodes => returns node || returnsAny nodes
termination_by structural nodes => nodes

def returnsPairs : List (Node × Node) → Bool
  | [] => false
  | (key, value) :: pairs => returns key || (returns value || returnsPairs pairs)
termination_by structural pairs => pairs

end

theorem returnsAny_iff {nodes : List Node} :
    returnsAny nodes = true ↔ ∃ node ∈ nodes, node.returns = true := by
  induction nodes with
  | nil => simp [returnsAny]
  | cons node nodes ih => simp [returnsAny, ih]

theorem returnsPairs_iff {pairs : List (Node × Node)} :
    returnsPairs pairs = true ↔ ∃ pair ∈ pairs, pair.1.returns = true ∨ pair.2.returns = true := by
  induction pairs with
  | nil => simp [returnsPairs]
  | cons pair pairs ih => simp [returnsPairs, ih, or_assoc]

theorem returns_iff {node : Node} : node.returns = true ↔ node.isReturning = true ∨
    ∃ child ∈ node.operands ++ node.tails, child.returns = true := by
  cases node with
  | map pairs line => simp [returns, isReturning, returnsPairs_iff]; grind
  | conditional condition consequence alternative line =>
      cases alternative <;> simp [returns, isReturning]
  | _ => simp [returns, isReturning, returnsAny_iff]

/-- A conditional with a return statement in its blocks. -/
def diverts : Node → Bool
  | conditional _ consequence alternative _ => consequence.returns || alternative.any returns
  | _ => false

/-- Conditionals that divert stand in expression statements only. -/
def tame : Node → Bool
  | statement _ _ => true
  | node => node.children.all fun child => !child.diverts

def disciplined (node : Node) : Bool := node.every tame

theorem operand_calm {node child : Node} (own : node.tame = true) (member : child ∈ node.operands) :
    child.diverts = false := by
  have inside := operand_child member
  cases node with
  | statement => cases member
  | _ => simpa using List.all_eq_true.mp own child inside

theorem tail_calm {node child : Node} (expression : node.isExpression = true)
    (calm : node.diverts = false) (member : child ∈ node.tails) : child.returns = false := by
  cases node with
  | conditional condition consequence alternative line =>
      simp only [diverts, Bool.or_eq_false_iff] at calm
      cases alternative with
      | none => simpa [List.mem_singleton.mp member] using calm.1
      | some other =>
          simp only [tails, Option.toList, List.mem_cons, List.not_mem_nil, or_false] at member
          rcases member with rfl | rfl
          · exact calm.1
          · exact calm.2
  | statement | block => cases expression
  | _ => cases member

/-- No return leaves an expression that does not divert. -/
theorem quiet_expression {node : Node} : node.shaped = true → node.disciplined = true →
    node.isExpression = true → node.diverts = false → node.returns = false := by
  induction node using children_induction with
  | step node ih =>
      intro shaped disciplined expression calm
      rw [Bool.eq_false_iff, Ne, returns_iff]
      rintro (returning | ⟨child, member, returns⟩)
      · cases node with
        | returning => cases expression
        | _ => cases returning
      rcases List.mem_append.mp member with operand | tail
      · have quiet := ih child (operand_child operand) (every_child shaped (operand_child operand))
          (every_child disciplined (operand_child operand))
          (operand_expression (every_own shaped) operand) (operand_calm (every_own disciplined) operand)
        rw [quiet] at returns
        cases returns
      · rw [tail_calm expression calm tail] at returns
        cases returns

theorem operand_quiet {node child : Node} (shaped : node.shaped = true)
    (disciplined : node.disciplined = true) (member : child ∈ node.operands) :
    child.returns = false :=
  quiet_expression (every_child shaped (operand_child member))
    (every_child disciplined (operand_child member)) (operand_expression (every_own shaped) member)
    (operand_calm (every_own disciplined) member)

theorem tail_quiet {node child : Node} (quiet : node.returns = false) (member : child ∈ node.tails) :
    child.returns = false := by
  rw [Bool.eq_false_iff] at quiet ⊢
  exact fun returns =>
    quiet (returns_iff.mpr (.inr ⟨child, List.mem_append_right _ member, returns⟩))

end Node

namespace Value

/-- No return marker, neither the value itself nor anything inside it. -/
def Unmarked (value : Value) : Prop := ∀ part ∈ value.parts, part.isReturned = false

def Proper (part : Value) : Prop :=
  part.isReturned = false ∧ ∀ body ∈ part.body?, body.shaped = true ∧ body.disciplined = true

end Value

/-- Disciplined trees, whose operands leave no return marker. -/
def NodeRule.disciplined : NodeRule where
  node node := node.shaped = true ∧ node.disciplined = true
  quiet node := node.returns = false
  body body := body.shaped = true ∧ body.disciplined = true
  marked := False
  called := id
  operand := fun own member => ⟨⟨Node.every_child own.1 (Node.operand_child member),
    Node.every_child own.2 (Node.operand_child member)⟩, Node.operand_quiet own.1 own.2 member⟩
  tail := fun own member => ⟨⟨Node.every_child own.1 (Node.tail_child member),
    Node.every_child own.2 (Node.tail_child member)⟩, fun quiet => Node.tail_quiet quiet member⟩
  program := fun own member => ⟨Node.every_child own.1 (Node.enclosed_child member),
    Node.every_child own.2 (Node.enclosed_child member)⟩
  function := fun own => ⟨Node.every_child own.1 (Node.enclosed_child List.mem_cons_self),
    Node.every_child own.2 (Node.enclosed_child List.mem_cons_self)⟩
  returning := fun _ quiet => nomatch quiet
  foreign := fun own => nomatch Node.every_own own.1

theorem NodeRule.disciplined_part (part : Value) : NodeRule.disciplined.part part ↔ part.Proper := by
  cases part <;> simp [NodeRule.part, Value.Proper, Value.isReturned, Value.body?, NodeRule.disciplined]

theorem Good.unmarked {region : Region} {value : Value} (good : Good .disciplined region value) :
    value.Unmarked :=
  fun part inside => ((NodeRule.disciplined_part part).mp (good part inside).1).1

namespace Evaluation

/-- What is bound, stored, passed or given back by a node holds no return marker, when the node is evaluated
on a machine with some frames left. -/
def Unleaked (frames : Nat) (scope : ScopeId) (machine : Machine) : Node → Prop
  | .binding _ node _ => ∀ value after,
      (evaluate frames scope node).outcome machine = (.ok value, after) → value.Unmarked
  | .array elements _ => ∀ values after,
      ((expressions scope elements).run evaluate frames).outcome machine = (.ok values, after) →
      ∀ value ∈ values, value.Unmarked
  | .map pairs _ => ∀ value after,
      ((entries scope [] pairs).run evaluate frames).outcome machine = (.ok value, after) → value.Unmarked
  | .call calleeNode argumentNodes _ => ∀ callee middle arguments after,
      (evaluate frames scope calleeNode).outcome machine = (.ok callee, middle) →
      ((expressions scope argumentNodes).run evaluate frames).outcome middle = (.ok arguments, after) →
      (∀ argument ∈ arguments, argument.Unmarked) ∧ ∀ result last,
        (apply frames callee arguments).outcome after = (.ok result, last) → result.Unmarked
  | _ => True

/-- Return markers stay inside an evaluation. -/
structure Contained (frames : Nat) (scope : ScopeId) (node : Node) (machine : Machine) : Prop where
  result : ∀ value, ((evaluate frames scope node).outcome machine).1 = .ok value → value.Unmarked
  after : ((evaluate frames scope node).outcome machine).2.SeesOnly scope Value.Proper
  /-- Wherever another node is evaluated on the way, and at that moment. -/
  within : ∀ left own inner earlier later,
    (chronicle frames scope node machine).acts = earlier ++ .entered (left + 1) own inner :: later →
    (machine.replay earlier).SeesOnly own Value.Proper ∧ Unleaked left own (machine.replay earlier) inner

section Keeping

open NodeRule (disciplined)

variable {region : Region} {scope : ScopeId} {machine after : Machine} {frames : Nat}
  (inside : region.inside scope) (kept : Kept .disciplined region machine)
include inside kept

theorem operand_kept {node inner : Node} (allowed : NodeRule.disciplined.node node)
    (member : inner ∈ node.operands) {value : Value}
    (result : (evaluate frames scope inner).outcome machine = (.ok value, after)) :
    Kept .disciplined region after ∧ Good .disciplined region value := by
  have ⟨own, quiet⟩ := disciplined.operand allowed member
  rw [evaluate_outcome] at result
  have tells := (disciplined.keeping_closed region).evaluation () frames scope inner ⟨inside, own⟩ kept
    fun _ _ => trivial
  rcases tells.of_outcome result with ⟨held, gives⟩
  exact ⟨held, NodeRule.good_of_gives gives quiet⟩

theorem expressions_kept {node : Node} (allowed : NodeRule.disciplined.node node) {nodes : List Node}
    (included : nodes ⊆ node.operands) {values : List Value}
    (result : ((expressions scope nodes).run evaluate frames).outcome machine = (.ok values, after)) :
    Kept .disciplined region after ∧ ∀ value ∈ values, Good .disciplined region value := by
  rw [run_outcome] at result
  have tells := (disciplined.keeping_closed region).expressions () frames scope nodes
    (fun inner member => ⟨⟨inside, (disciplined.operand allowed (included member)).1⟩,
      (disciplined.operand allowed (included member)).2⟩) kept fun _ _ => trivial
  rcases tells.of_outcome result with ⟨held, gives⟩
  exact ⟨held, fun value member => NodeRule.good_of_gives (gives value member) trivial⟩

theorem entries_kept {pairs : List (Node × Node)} {line : Int}
    (allowed : NodeRule.disciplined.node (.map pairs line)) {value : Value}
    (result : ((entries scope [] pairs).run evaluate frames).outcome machine = (.ok value, after)) :
    Good .disciplined region value := by
  rw [run_outcome] at result
  have operand {pair : Node × Node} (member : pair ∈ pairs) {inner : Node} (own : inner ∈ [pair.1, pair.2]) :=
    disciplined.operand allowed (List.mem_flatMap_of_mem member own)
  have tells := (disciplined.keeping_closed region).entries () frames scope pairs
    (fun pair member => ⟨⟨⟨inside, (operand member List.mem_cons_self).1⟩, (operand member List.mem_cons_self).2⟩,
      ⟨inside, (operand member (by simp)).1⟩, (operand member (by simp)).2⟩) kept fun _ _ => trivial
  exact NodeRule.good_of_gives (tells.of_outcome result).2 trivial

theorem unleaked (frames : Nat) {node : Node} (allowed : NodeRule.disciplined.node node) :
    Unleaked frames scope machine node := by
  cases node with
  | binding name inner line =>
      intro value after result
      exact (operand_kept inside kept allowed List.mem_cons_self result).2.unmarked
  | array elements line =>
      intro values after result value member
      exact ((expressions_kept inside kept allowed (List.Subset.refl elements) result).2 value member).unmarked
  | map pairs line =>
      intro value after result
      exact (entries_kept inside kept allowed result).unmarked
  | call calleeNode argumentNodes line =>
      intro callee middle arguments after called passed
      rcases operand_kept inside kept allowed List.mem_cons_self called with ⟨held, function⟩
      rcases expressions_kept inside held allowed (List.subset_cons_self calleeNode argumentNodes) passed with
        ⟨ready, good⟩
      refine ⟨fun argument member => (good argument member).unmarked, fun result last given => ?_⟩
      have all : ∀ value ∈ callee :: arguments, Good .disciplined region value ∧ True := fun value member =>
        ⟨List.forall_mem_cons.mpr ⟨function, good⟩ value member, trivial⟩
      rw [apply_outcome] at given
      have tells := (disciplined.keeping_closed region).call () frames all ready fun _ _ => trivial
      exact (NodeRule.good_of_gives (tells.of_outcome given).2 trivial).unmarked
  | _ => trivial

end Keeping

theorem program_contained {statements : List Node} {scope : ScopeId} {machine : Machine}
    (shaped : (Node.program statements).shaped = true)
    (disciplined : (Node.program statements).disciplined = true)
    (only : machine.SeesOnly scope Value.Proper) (frames : Nat) :
    Contained frames scope (.program statements) machine := by
  have kept := (only.mono fun part => (NodeRule.disciplined_part part).mpr).kept
  have inside : (Region.of machine scope).inside scope := .inl .own
  have allowed : NodeRule.disciplined.node (.program statements) := ⟨shaped, disciplined⟩
  have proper {after : Machine} (held : Kept .disciplined (Region.of machine scope) after)
      {own : ScopeId} (within : (Region.of machine scope).inside own) :
      after.SeesOnly own Value.Proper :=
    (held.seesOnly within).mono fun part => (NodeRule.disciplined_part part).mp
  have tells := (NodeRule.disciplined.keeping_closed _).evaluation () frames scope _ ⟨inside, allowed⟩ kept
    fun _ _ => trivial
  refine ⟨?_, ?_, ?_⟩
  · intro value result
    rw [evaluate_outcome] at result
    exact (NodeRule.good_of_gives (tells.gives value result) rfl).unmarked
  · rw [evaluate_outcome]
    exact proper tells.machine inside
  · intro left own inner earlier later shape
    rcases tells.moment earlier _ later shape with ⟨held, permitted⟩
    rcases permitted _ own inner rfl with ⟨within, node⟩
    exact ⟨proper held within, unleaked within held left node⟩

end Evaluation

def Grammar.Disciplined (limit : Nat) (source : String) : Prop :=
  ∀ reading, Grammar.read limit source = .ok reading → reading.program.disciplined = true

theorem Grammar.read_shaped {limit : Nat} {source : String} {reading : Reading}
    (read : Grammar.read limit source = .ok reading) : reading.program.shaped = true :=
  Node.shaped_of_wellFormed (readTokens_formed (scan_valid source) read)

namespace Session

def Proper (session : Session) : Prop := session.machine.SeesOnly session.root Value.Proper

theorem run_proper {session : Session} (proper : session.Proper) {source : String}
    (disciplined : Grammar.Disciplined session.limit source) :
    (session.run source).2.Proper ∧
      ∀ value, (session.run source).1 = .ok value → value.Unmarked := by
  rcases session.run_cases source with ⟨failure, run⟩ | ⟨statements, read, run⟩
  · rw [run]
    exact ⟨proper, fun value same => nomatch same⟩
  · have contained := Evaluation.program_contained (Grammar.read_shaped read)
      (disciplined _ read) proper session.limit
    rw [run, evaluate_eq]
    refine ⟨contained.after, fun value shown => ?_⟩
    rcases Stop.shown_ok shown with result | ⟨fault, rfl⟩
    · exact contained.result value result
    · simp [Value.Unmarked, Value.parts, Value.isReturned]

theorem runAll_proper {session : Session} (proper : session.Proper) {sources : List String}
    (disciplined : ∀ source ∈ sources, Grammar.Disciplined session.limit source) :
    (session.runAll sources).2.Proper ∧
      ∀ result ∈ (session.runAll sources).1, ∀ value, result = .ok value → value.Unmarked := by
  induction sources generalizing session with
  | nil => exact ⟨proper, by simp [runAll]⟩
  | cons source sources ih =>
      rw [List.forall_mem_cons] at disciplined
      have first := run_proper proper disciplined.1
      have same : (session.run source).2.limit = session.limit := by rw [run_frame]
      have rest := ih first.1 (same.symm ▸ disciplined.2)
      exact ⟨rest.1, List.forall_mem_cons.mpr ⟨first.2, rest.2⟩⟩

end Session

/-- A disciplined program that was read, run where neither markers nor functions with undisciplined
bodies are in reach, contains its markers: they are in no result, of the program or of a call on the way,
and in nothing that is bound, stored or passed; and neither they nor such functions are in reach
afterwards. So it is after any number of such runs in a session. -/
theorem return_markers_contained :
    (∀ limit source reading frames scope machine, Grammar.read limit source = .ok reading →
      reading.program.disciplined = true → machine.SeesOnly scope Value.Proper →
      Evaluation.Contained frames scope reading.program machine) ∧
    ∀ (session : Session) (sources : List String), session.Proper →
      (∀ source ∈ sources, Grammar.Disciplined session.limit source) →
      (session.runAll sources).2.Proper ∧
        ∀ result ∈ (session.runAll sources).1, ∀ value, result = .ok value → value.Unmarked := by
  constructor
  · intro limit source reading frames scope machine read disciplined only
    exact Evaluation.program_contained (Grammar.read_shaped read) disciplined only frames
  · intro session sources proper disciplined
    exact Session.runAll_proper proper disciplined

/-- A function that returns early from inside a conditional, called in the same run and in the next. -/
theorem early_return_contained :
    let source := "let f = fn(x) \x7b if (x > 1) \x7b return [x]; \x7d x \x7d; f(2);"
    Session.new.Proper ∧
      (∃ reading, Grammar.read standardLimit source = .ok reading ∧
        reading.program.disciplined = true ∧
        Evaluation.Contained 300 Session.new.root reading.program Session.new.machine) ∧
      (Session.new.runAll [source, "f(1);"]).2.Proper ∧
      ∀ result ∈ (Session.new.runAll [source, "f(1);"]).1, ∀ value, result = .ok value →
        value.Unmarked := by
  intro source
  have proper : Session.new.Proper := by
    intro id scope seen there binding bound
    have only : scope = ⟨[], none⟩ := by
      simpa [Session.new, Session.on, Session.within, Machine.addScope, Machine.empty, eq_comm] using
        List.mem_of_getElem? (Array.getElem?_toList.trans there)
    subst only
    cases bound
  have first : (Grammar.read standardLimit source).map (·.program.disciplined) = .ok true := by decide
  have second : (Grammar.read standardLimit "f(1);").map (·.program.disciplined) = .ok true := by decide
  have holds {text : String}
      (known : (Grammar.read standardLimit text).map (·.program.disciplined) = .ok true) :
      Grammar.Disciplined standardLimit text := by
    intro reading read
    rw [read] at known
    exact Except.ok.inj known
  obtain ⟨reading, read⟩ : ∃ reading, Grammar.read standardLimit source = .ok reading := by
    cases result : Grammar.read standardLimit source with
    | ok reading => exact ⟨reading, rfl⟩
    | error error =>
        rw [result] at first
        cases first
  have disciplined := holds first reading read
  refine ⟨proper, ⟨reading, read, disciplined, ?_⟩, ?_⟩
  · exact return_markers_contained.1 _ _ _ 300 _ _ read disciplined proper
  · apply return_markers_contained.2 _ _ proper
    simp only [List.mem_cons, List.not_mem_nil, or_false, forall_eq_or_imp, forall_eq]
    exact ⟨holds first, holds second⟩

end Marmoset
