import Marmoset.Proofs.Session.Histories

/-!
Equality in the language goes by identity, and identities mean something: no identity is given twice, and
whatever is found with an identity is the very value that was made with it. So two values that are there at
some moment are equal only if they are one value, and a value that is made equals nothing that was there
before.
-/

namespace Marmoset

open Machine Evaluation Eval

def TypeTag.byIdentity : TypeTag → Bool
  | integer | string | error => false
  | _ => true

namespace Value

variable {first second : Value}

/-- The language says that two values are equal. -/
def Equals (first second : Value) : Prop := Operator.eq.onBoth first second = .ok (.boolean true)

theorem compared (same : first.tag = second.tag) (compares : first.tag.byIdentity = true) :
    Operator.eq.onBoth first second = .ok (.boolean (first.identical second)) ∧
      Operator.ne.onBoth first second = .ok (.boolean (!first.identical second)) := by
  cases first <;> cases second <;>
    simp_all [tag, TypeTag.byIdentity, Operator.onBoth, Operator.onOthers]

theorem equals_iff (same : first.tag = second.tag) (compares : first.tag.byIdentity = true) :
    first.Equals second ↔ first.identical second = true := by
  rw [Equals, (compared same compares).1]
  simp

theorem Equals.identity (equals : first.Equals second) : first.identity? = second.identity? := by
  cases first <;> cases second <;>
    simp_all [Equals, tag, identity?, identical, Operator.onBoth, Operator.onOthers]

theorem identical_self (compares : first.tag.byIdentity = true) : first.identical first = true := by
  cases first <;> simp_all [tag, TypeTag.byIdentity, identical]

theorem Equals.plain (equals : first.Equals second) (plain : first.identity? = none) :
    first = second := by
  cases first <;> cases second <;>
    simp_all [Equals, tag, identity?, identical, Operator.onBoth, Operator.onIntegers, Operator.onStrings,
      Operator.onOthers]

/-- An identity was given to one value only, so familiar values are equal only when they are the same. -/
theorem Equals.same {history : List Act} (equals : first.Equals second)
    (familiar : first.Familiar history) (other : second.Familiar history) : first = second := by
  cases own : first.identity? with
  | none => exact equals.plain own
  | some identity =>
      -- both are what was made with the identity
      have made := familiar.2 identity own
      rw [other.2 identity (equals.identity.symm.trans own)] at made
      exact (Option.some.inj made).symm

end Value

section Made

variable {history : List Act} {value other : Value}

theorem Value.Familiar.apart (familiar : other.Familiar history)
    (own : value.identity? = some (after history).next) :
    ¬ value.Equals other ∧ ¬ other.Equals value := by
  have unused : other.identity? ≠ some (after history).next := by
    intro same
    have made := (List.getElem?_eq_some_iff.mp (familiar.2 _ same)).1
    rw [after_next] at made
    exact Nat.lt_irrefl _ made
  constructor
  · exact fun equals => unused (equals.identity.symm.trans own)
  · exact fun equals => unused (equals.identity.trans own)

/-- Whatever was made equals nothing that was there before. -/
theorem Lawful.made_apart (lawful : Lawful (history ++ [.made value])) (present : Present history other) :
    ¬ value.Equals other ∧ ¬ other.Equals value := by
  rcases lawful_concat.mp lawful with ⟨before, own, -⟩
  exact (before.present present).apart own

end Made

/-- The literals that make a value. -/
def Node.makes : Node → Bool
  | array _ _ | map _ _ | function _ _ _ => true
  | _ => false

section Literals

/-- An agenda that gives nothing but errors and what it makes last. -/
inductive Agenda.Makes : Agenda Value → Prop
  | finish {result : Except Stop Value} (fails : ∀ value, result = .ok value → value.isError = true) :
      Makes (finish result)
  | make (content : Content) : Makes (make content)
  | act {request : Request} {next : request.Answer → Agenda Value} (rest : ∀ answer, Makes (next answer)) :
      Makes (act request next)

variable {α : Type} {inner : Nat → ScopeId → Node → Machine → Chronicle Value} {machine : Machine}
  {value : Value} {frames : Nat}

namespace Agenda

theorem Makes.bind {agenda : Agenda α} {next : α → Agenda Value} (rest : ∀ value, (next value).Makes) :
    (agenda >>= next).Makes := by
  change (agenda.andThen next).Makes
  induction agenda with
  | finish result =>
      cases result with
      | error stop => exact .finish nofun
      | ok value => exact rest value
  | act request following ih => exact .act ih

theorem makes_error (failed : value.isError = true) : (pure value : Agenda Value).Makes :=
  .finish fun _ same => Except.ok.inj same ▸ failed

theorem Makes.chronicle {agenda : Agenda Value} (makes : agenda.Makes)
    (result : (agenda.chronicle inner frames machine).result = .ok value) (proper : value.isError = false) :
    ∃ earlier, (agenda.chronicle inner frames machine).acts = earlier ++ [.made value] := by
  induction makes generalizing machine with
  | finish fails =>
      rw [fails value result] at proper
      cases proper
  | make content =>
      cases result
      exact ⟨[], rfl⟩
  | @act request next rest ih =>
      rw [Agenda.chronicle] at result ⊢
      rcases told : request.chronicle inner frames machine with ⟨stop | answer, acts⟩
      · rw [told] at result
        cases result
      · rw [told] at result
        rcases ih answer result with ⟨earlier, made⟩
        exact ⟨acts ++ earlier, by rw [Chronicle.andThen, Chronicle.following, made, List.append_assoc]⟩

end Agenda

namespace Evaluation

open Agenda

theorem failure?_isError {values : List Value} (failed : failure? values = some value) :
    value.isError = true := by
  match values with
  | [] => cases failed
  | [only] =>
      simp only [failure?] at failed
      split at failed
      · next error => exact Option.some.inj failed ▸ error
      · cases failed
  | _ :: _ :: _ => cases failed

theorem entries_makes {scope : ScopeId} {written : Entries} {pairs : List (Node × Node)} :
    (entries scope written pairs).Makes := by
  induction pairs generalizing written with
  | nil => exact .act fun _ => .make _
  | cons pair pairs ih =>
      refine .act fun keyValue => ?_
      change Makes (if keyValue.isError then pure keyValue else _)
      split
      · next failed => exact makes_error failed
      · split
        · exact makes_error rfl
        · refine .act fun value => ?_
          change Makes (if value.isError then pure value else _)
          split
          · next failed => exact makes_error failed
          · exact ih

theorem step_makes {scope : ScopeId} {node : Node} (makes : node.makes = true) : (step scope node).Makes := by
  cases node with
  | array elements line =>
      refine .bind fun values => ?_
      split
      · next failed => exact makes_error (failure?_isError failed)
      · exact .make _
  | map pairs line => exact .act fun _ => entries_makes
  | function parameters body line => exact .act fun _ => .make _
  | _ => cases makes

theorem chronicle_literal {scope : ScopeId} {node : Node} (makes : node.makes = true)
    (result : (chronicle frames scope node machine).result = .ok value) (proper : value.isError = false) :
    ∃ earlier, (chronicle frames scope node machine).acts = earlier ++ [.made value, .left (.ok value)] := by
  cases frames with
  | zero => cases result
  | succ frames =>
      rw [chronicle_succ] at result ⊢
      rcases (step_makes makes).chronicle result proper with ⟨earlier, made⟩
      refine ⟨.entered (frames + 1) scope node :: earlier, ?_⟩
      have given : ((step scope node).chronicle chronicle frames machine).result = .ok value := result
      rw [Chronicle.between, made, given, List.append_assoc]
      rfl

end Evaluation

end Literals

theorem Agenda.room_outcome {recur : Nat → ScopeId → Node → Eval Value} {calls frames : Nat}
    {next : Unit → Agenda Value} {machine : Machine} {value : Value}
    (result : (((room calls >>= next).run recur frames).outcome machine).1 = .ok value) :
    ((room calls >>= next).run recur frames).outcome machine = ((next ()).run recur frames).outcome machine := by
  rcases Nat.lt_or_ge frames calls with less | enough
  · rw [run_room_spent less] at result
    cases result
  · rw [run_room enough]

namespace Evaluation

variable {frames : Nat} {machine : Machine} {identity : Identity} {elements others : List Value}

theorem refuse_outcome {calls : Nat} {reason : Fault} {value : Value}
    (result : (((Builtin.refuse calls reason).run evaluate frames).outcome machine).1 = .ok value) :
    value = .error reason := by
  have begun := Agenda.room_outcome result
  change ((Builtin.refuse calls reason).run evaluate frames).outcome machine = _ at begun
  rw [begun] at result
  exact (Except.ok.inj result).symm

theorem newArray_outcome
    (result : (((Builtin.newArray others).run evaluate frames).outcome machine).1 =
      .ok (.array identity elements)) :
    identity = machine.next ∧ ((Builtin.newArray others).run evaluate frames).outcome machine =
      (.ok (.array identity elements), machine.perform (.made (.array identity elements))) := by
  have begun := Agenda.room_outcome result
  change ((Builtin.newArray others).run evaluate frames).outcome machine = _ at begun
  rw [begun] at result ⊢
  cases result
  exact ⟨rfl, rfl⟩

theorem apply_made {builtin : Builtin} (builds : builtin = .rest ∨ builtin = .push) {arguments : List Value}
    (result : ((apply frames (.builtin builtin) arguments).outcome machine).1 = .ok (.array identity elements)) :
    identity = machine.next ∧ ((apply frames (.builtin builtin) arguments).outcome machine).2 =
      machine.perform (.made (.array identity elements)) := by
  have begun := Agenda.room_outcome result
  change (apply frames (.builtin builtin) arguments).outcome machine = _ at begun
  rw [begun] at result ⊢
  -- Both either refuse their arguments or make a new array.
  have refused {calls : Nat} {reason : Fault}
      (result : (((Builtin.refuse calls reason).run evaluate frames).outcome machine).1 =
        .ok (.array identity elements)) : False := nomatch refuse_outcome result
  have made {others : List Value} (result : (((Builtin.newArray others).run evaluate frames).outcome machine).1 =
        .ok (.array identity elements)) :
      identity = machine.next ∧ (((Builtin.newArray others).run evaluate frames).outcome machine).2 =
        machine.perform (.made (.array identity elements)) :=
    ⟨(newArray_outcome result).1, congrArg Prod.snd (newArray_outcome result).2⟩
  rcases builds with rfl | rfl
  · rcases arguments with - | ⟨argument, - | ⟨other, others⟩⟩
    · exact (refused result).elim
    · cases argument with
      | array own inside =>
          cases inside with
          | nil => cases result
          | cons element inside => exact made result
      | _ => exact (refused result).elim
    · cases argument <;> exact (refused result).elim
  · rcases arguments with - | ⟨argument, - | ⟨element, - | ⟨other, others⟩⟩⟩
    · exact (refused result).elim
    · cases argument <;> exact (refused result).elim
    · cases argument with
      | array own inside => exact made result
      | _ => exact (refused result).elim
    · cases argument <;> exact (refused result).elim

end Evaluation

/-- What equality means among the values that are there after a history, and for those that are made from
there on. -/
structure RespectsIdentity (history : List Act) : Prop where
  /-- Values of one type are equal or not, and unequal exactly when they are not equal. -/
  decided : ∀ first second, Present history first → Present history second → first.tag = second.tag →
    first.tag.byIdentity = true → ∃ answer, Operator.eq.onBoth first second = .ok (.boolean answer) ∧
      Operator.ne.onBoth first second = .ok (.boolean (!answer))
  /-- Equal values are the same, down to all that they hold and capture. -/
  contents : ∀ first second, Present history first → Present history second →
    first.Equals second → first = second
  refl : ∀ value, Present history value → value.tag.byIdentity = true → value.Equals value
  symm : ∀ first second, Present history first → Present history second →
    first.Equals second → second.Equals first
  trans : ∀ first second third, Present history first → Present history second → Present history third →
    first.Equals second → second.Equals third → first.Equals third
  /-- Whatever was made on the way equals nothing that was there before it. -/
  made : ∀ earlier value later other, history = earlier ++ .made value :: later → Present earlier other →
    ¬ value.Equals other ∧ ¬ other.Equals value
  /-- The value of a literal is made last, behind its elements, and equals nothing that was there before. -/
  literal : ∀ frames scope node value, scope < (after history).scopes.size → node.makes = true →
    ((evaluate frames scope node).outcome (after history)).1 = .ok value → value.isError = false →
    ∃ earlier, (chronicle frames scope node (after history)).acts =
        earlier ++ [.made value, .left (.ok value)] ∧
      ((evaluate frames scope node).outcome (after history)).2 =
        after (history ++ (earlier ++ [.made value, .left (.ok value)])) ∧
      ∀ other, Present (history ++ earlier) other → ¬ value.Equals other ∧ ¬ other.Equals value
  built : ∀ frames builtin arguments identity elements, builtin = .rest ∨ builtin = .push →
    ((apply frames (.builtin builtin) arguments).outcome (after history)).1 = .ok (.array identity elements) →
    ((apply frames (.builtin builtin) arguments).outcome (after history)).2 =
        after (history ++ [.made (.array identity elements)]) ∧
      ∀ other, Present history other →
        ¬ (Value.array identity elements).Equals other ∧ ¬ other.Equals (.array identity elements)

theorem Arises.respectsIdentity {history : List Act} (arises : Arises history) :
    RespectsIdentity history where
  decided first second _ _ same compares :=
    ⟨first.identical second, Value.compared same compares⟩
  contents first second there here equals :=
    equals.same (arises.lawful.present there) (arises.lawful.present here)
  refl value _ compares := (Value.equals_iff rfl compares).mpr (Value.identical_self compares)
  symm first second there here equals := by
    cases equals.same (arises.lawful.present there) (arises.lawful.present here)
    exact equals
  trans first second third there here _ equals next := by
    cases equals.same (arises.lawful.present there) (arises.lawful.present here)
    exact next
  made earlier value later other split present := by
    have early : earlier ++ [.made value] <+: history := ⟨later, by simp [split]⟩
    exact (arises.lawful.front early).made_apart present
  literal frames scope node value inside makes result proper := by
    rw [evaluate_outcome] at result ⊢
    rcases chronicle_literal makes result proper with ⟨earlier, acts⟩
    have lawful := (arises.evaluated inside frames node).lawful
    rw [acts] at lawful
    have early : history ++ earlier ++ [.made value] <+:
        history ++ (earlier ++ [.made value, .left (.ok value)]) := ⟨[.left (.ok value)], by simp⟩
    refine ⟨earlier, acts, ?_, fun other present => (lawful.front early).made_apart present⟩
    rw [after_append, ← acts]
    rfl
  built frames builtin arguments identity elements builds result := by
    rcases apply_made builds result with ⟨rfl, after⟩
    rw [after, after_concat]
    exact ⟨rfl, fun other present => (arises.lawful.present present).apart rfl⟩

/-- Equality goes by identity, and identity by contents, at every moment of every history; and every session
that comes about has such a history, up to every moment of it. -/
theorem equality_respects_identity :
    (∀ history, Arises history → RespectsIdentity history) ∧
      ∀ limit session history, Session.Comes limit session history →
        session.machine = after history ∧ ∀ moment, moment <+: history → Arises moment := by
  constructor
  · exact fun history arises => arises.respectsIdentity
  · intro limit session history comes
    have follows := comes.follows
    exact ⟨follows.machine, fun moment early => follows.arises.interrupted early⟩

def aliasProgram : Node :=
  .program
    [.binding ⟨"a", 1, 4⟩ (.array [.integer 1 1] 1) 1,
      .binding ⟨"b", 1, 17⟩ (.identifier ⟨"a", 1, 21⟩) 1]

def aliasHistory : List Act :=
  [.added none] ++ (chronicle 30 0 aliasProgram (Session.fresh 30).machine).acts

/-- Two names of one array are equal, and another array with the same elements equals neither. -/
theorem twin_array_apart :
    let session := ((Session.fresh 30).run "let a = [1]; let b = a").2
    Session.Comes 30 session aliasHistory ∧ RespectsIdentity aliasHistory ∧
      session.get? "a" = some (.array 0 [.integer 1]) ∧ session.get? "b" = some (.array 0 [.integer 1]) ∧
      (Value.array 0 [.integer 1]).Equals (.array 0 [.integer 1]) ∧
      ((evaluate 30 0 (.array [.integer 1 1] 1)).outcome session.machine).1 =
        .ok (.array 1 [.integer 1]) ∧
      ¬ (Value.array 1 [.integer 1]).Equals (.array 0 [.integer 1]) := by
  intro session
  have read : (Session.fresh 30).read "let a = [1]; let b = a" = .ok aliasProgram := by rfl
  have comes : Session.Comes 30 session aliasHistory := by
    have ran := Session.Comes.ran (@Session.Comes.fresh 30) "let a = [1]; let b = a"
    rw [Session.runActs, read] at ran
    exact ran
  rcases equality_respects_identity.2 30 session aliasHistory comes with ⟨machine, moments⟩
  have respects := equality_respects_identity.1 aliasHistory (moments _ (List.prefix_refl _))
  have made : aliasHistory[6]? = some (.made (.array 0 [.integer 1])) := rfl
  have present {more : List Act} : Present (aliasHistory ++ more) (.array 0 [.integer 1]) :=
    ⟨_, List.mem_cons_self, .inr (.inl (List.mem_append_left _ (List.mem_of_getElem? made)))⟩
  have there : Present aliasHistory (.array 0 [.integer 1]) := List.append_nil aliasHistory ▸ present
  have result : ((evaluate 30 0 (.array [.integer 1 1] 1)).outcome (after aliasHistory)).1 =
      .ok (.array 1 [.integer 1]) := rfl
  rcases respects.literal 30 0 _ _ (by decide +kernel) rfl result rfl with ⟨earlier, -, -, apart⟩
  refine ⟨comes, respects, ?_, ?_, respects.refl _ there rfl, ?_, (apart _ present).1⟩
  · rw [Session.get?, machine]
    rfl
  · rw [Session.get?, machine]
    rfl
  · rw [machine]
    exact result

end Marmoset
