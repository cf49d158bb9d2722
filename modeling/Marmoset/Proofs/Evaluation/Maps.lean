import Marmoset.Proofs.Evaluation.Chronicle
import Marmoset.Proofs.Value.Twin

/-!
Map literals and indexing. The pairs of a literal are evaluated in order, each key before its value, and
written one after another. The hash has each key once, where it was first written, with the value written
last, and indexing finds that value. A key that is no integer, boolean or string ends the evaluation
before its value is looked at.
-/

namespace Marmoset

@[simp] theorem Key.key?_toValue (key : Key) : key.toValue.key? = some key := by
  cases key <;> rfl

theorem Value.key?_eq_none {value : Value} (other : ∀ key : Key, value ≠ key.toValue) :
    value.key? = none := by
  cases keyed : value.key? with
  | none => rfl
  | some key => exact absurd (eq_toValue_of_key? keyed) (other key)

theorem Value.indexed_ofWrites (identity : Identity) (key : Key) (writes : List (Key × Value)) :
    (hash identity (Table.ofWrites writes)).indexed key.toValue =
      .ok ((Table.latest key writes).getD .null) := by
  simp only [indexed, Key.key?_toValue, Table.find?_ofWrites]

theorem Key.isError_toValue (key : Key) : key.toValue.isError = false := by
  cases key <;> rfl

namespace Evaluation

/-- The pairs of a map evaluate one after another, each key before its value: to which keys and values, and
with what done on the way. -/
inductive Written (frames : Nat) (scope : ScopeId) :
    Machine → List (Node × Node) → List (Key × Value) → List Act → Prop
  | nil {machine : Machine} : Written frames scope machine [] [] []
  | cons {keyNode valueNode : Node} {pairs : List (Node × Node)} {key : Key} {value : Value}
      {writes : List (Key × Value)} {keyActs valueActs acts : List Act} {before : Machine}
      (keyed : chronicle frames scope keyNode before = ⟨.ok key.toValue, keyActs⟩)
      (valued : chronicle frames scope valueNode (before.replay keyActs) = ⟨.ok value, valueActs⟩)
      (proper : value.isError = false)
      (rest : Written frames scope (before.replay (keyActs ++ valueActs)) pairs writes acts) :
      Written frames scope before ((keyNode, valueNode) :: pairs) ((key, value) :: writes)
        (keyActs ++ valueActs ++ acts)

section Entries

variable {inner : Nat → ScopeId → Node → Machine → Chronicle Value} {frames : Nat} {scope : ScopeId}
  {keyNode valueNode : Node} {pairs : List (Node × Node)} {entries : Entries} {before : Machine}
  {keyActs valueActs : List Act}

theorem entries_chronicle_cons {key : Key} {value : Value}
    (keyed : inner frames scope keyNode before = ⟨.ok key.toValue, keyActs⟩)
    (valued : inner frames scope valueNode (before.replay keyActs) = ⟨.ok value, valueActs⟩)
    (proper : value.isError = false) :
    (Evaluation.entries scope entries ((keyNode, valueNode) :: pairs)).chronicle inner (frames + 1) before =
      ((Evaluation.entries scope (Table.write key value entries) pairs).chronicle inner (frames + 1)
        (before.replay (keyActs ++ valueActs))).following (keyActs ++ valueActs) := by
  rw [Evaluation.entries, Agenda.chronicle_ask keyed]
  simp only [Key.isError_toValue, Key.key?_toValue, Bool.false_eq_true, if_false]
  rw [Agenda.chronicle_ask valued]
  simp only [proper, Bool.false_eq_true, if_false, Chronicle.following, Machine.replay_append,
    List.append_assoc]

theorem entries_chronicle_unhashable {keyValue : Value}
    (keyed : inner frames scope keyNode before = ⟨.ok keyValue, keyActs⟩) (proper : keyValue.isError = false)
    (other : keyValue.key? = none) :
    (Evaluation.entries scope entries ((keyNode, valueNode) :: pairs)).chronicle inner (frames + 1) before =
      ⟨.ok (.error (.unhashable keyValue.tag)), keyActs⟩ := by
  rw [Evaluation.entries, Agenda.chronicle_ask keyed]
  simp only [proper, other, Bool.false_eq_true, if_false]
  exact congrArg _ (List.append_nil keyActs)

end Entries

variable {frames : Nat} {scope : ScopeId} {pairs : List (Node × Node)} {writes : List (Key × Value)}
  {acts : List Act} {before : Machine}

namespace Written

theorem entries_chronicle (written : Written frames scope before pairs writes acts) (start : Entries)
    (later : List (Node × Node)) :
    (Evaluation.entries scope start (pairs ++ later)).chronicle chronicle (frames + 1) before =
      ((Evaluation.entries scope (writes.foldl (fun table entry => Table.write entry.1 entry.2 table) start)
        later).chronicle chronicle (frames + 1) (before.replay acts)).following acts := by
  induction written generalizing start with
  | nil => rfl
  | cons keyed valued proper rest ih =>
      rw [List.cons_append, entries_chronicle_cons keyed valued proper, ih, List.foldl_cons]
      simp only [Chronicle.following, Machine.replay_append, List.append_assoc]

theorem chronicle_map (written : Written frames scope before pairs writes acts) (enough : 2 ≤ frames)
    (line : Int) : let value := Value.hash (before.replay acts).next (Table.ofWrites writes)
    chronicle (frames + 2) scope (.map pairs line) before =
      ⟨.ok value, .entered (frames + 2) scope (.map pairs line) :: (acts ++ [.made value] ++ [.left (.ok value)])⟩ := by
  intro value
  have followed := written.entries_chronicle [] []
  rw [List.append_nil] at followed
  rw [chronicle_succ, step, Agenda.chronicle_room (Nat.le_add_left 1 frames), followed, Evaluation.entries,
    Agenda.chronicle_room (Nat.succ_le_succ enough)]
  rfl

theorem evaluate_map (written : Written frames scope before pairs writes acts) (enough : 2 ≤ frames)
    (line : Int) : (evaluate (frames + 2) scope (.map pairs line)).outcome before =
      (.ok (.hash (before.replay acts).next (Table.ofWrites writes)), (before.replay acts).freshIdentity.2) := by
  rw [evaluate_outcome, written.chronicle_map enough, Chronicle.outcome, Machine.replay_cons,
    Machine.replay_append, Machine.replay_append]
  rfl

theorem chronicle_unhashable (written : Written frames scope before pairs writes acts)
    {keyNode valueNode : Node} {later : List (Node × Node)} {keyValue : Value} {keyActs : List Act}
    (keyed : chronicle frames scope keyNode (before.replay acts) = ⟨.ok keyValue, keyActs⟩)
    (proper : keyValue.isError = false) (other : ∀ key : Key, keyValue ≠ key.toValue) (line : Int) :
    let node := Node.map (pairs ++ (keyNode, valueNode) :: later) line
    let error := Value.error (.unhashable keyValue.tag)
    chronicle (frames + 2) scope node before =
      ⟨.ok error, .entered (frames + 2) scope node :: (acts ++ keyActs ++ [.left (.ok error)])⟩ := by
  intro node error
  rw [chronicle_succ, step, Agenda.chronicle_room (Nat.le_add_left 1 frames), written.entries_chronicle,
    entries_chronicle_unhashable keyed proper (Value.key?_eq_none other)]
  rfl

theorem evaluate_index (written : Written frames scope before pairs writes acts) (enough : 2 ≤ frames)
    (line : Int) {positionNode : Node} {key : Key} {final : Machine}
    (placed : (evaluate (frames + 2) scope positionNode).outcome (before.replay acts).freshIdentity.2 =
      (.ok key.toValue, final)) (place : Int) :
    (evaluate (frames + 3) scope (.index (.map pairs line) positionNode place)).outcome before =
      (.ok ((Table.latest key writes).getD .null), final) := by
  have proper : (Value.hash (before.replay acts).next (Table.ofWrites writes)).isError = false := rfl
  rw [evaluate_succ, step, Agenda.run_ask, Eval.outcome_bind, Nat.sub_zero, written.evaluate_map enough]
  simp only [proper, Bool.false_eq_true, if_false]
  rw [Agenda.run_ask, Eval.outcome_bind, Nat.sub_zero, placed]
  simp only [Key.isError_toValue, Bool.false_eq_true, if_false]
  have calls : indexCalls (.hash (before.replay acts).next (Table.ofWrites writes)) key.toValue = 3 := by
    rw [indexCalls, Key.key?_toValue]
    rfl
  rw [calls, Agenda.run_room (by omega), Value.indexed_ofWrites]
  rfl

end Written

/-- A literal whose pairs evaluate to keys and values is a hash with one entry for each key, in the order in
which the keys first occur, and each with the value of the last pair of that key; indexing with a key gives
this value, or null where no pair has the key. A literal with a key that is none ends in an error there: all
that was evaluated are the pairs before and that key. -/
theorem map_literal_indexed (frames : Nat) (scope : ScopeId) (line : Int) :
    (∀ before pairs writes acts, 2 ≤ frames → Written frames scope before pairs writes acts →
      let after := before.replay acts
      ∃ entries, (evaluate (frames + 2) scope (.map pairs line)).outcome before =
          (.ok (.hash after.next entries), { after with next := after.next + 1 }) ∧
        entries.map Prod.fst = (writes.map Prod.fst).eraseDups ∧
        (∀ entry ∈ entries, Table.latest entry.1 writes = some entry.2) ∧
        (∀ key : Key, (Value.hash after.next entries).indexed key.toValue =
          .ok ((Table.latest key writes).getD .null)) ∧
        ∀ positionNode (key : Key) final place,
          (evaluate (frames + 2) scope positionNode).outcome { after with next := after.next + 1 } =
            (.ok key.toValue, final) →
          (evaluate (frames + 3) scope (.index (.map pairs line) positionNode place)).outcome before =
            (.ok ((Table.latest key writes).getD .null), final)) ∧
      ∀ before front writes acts keyNode valueNode later keyValue keyActs,
        Written frames scope before front writes acts →
        chronicle frames scope keyNode (before.replay acts) = ⟨.ok keyValue, keyActs⟩ →
        keyValue.isError = false → (∀ key : Key, keyValue ≠ key.toValue) →
        let node := Node.map (front ++ (keyNode, valueNode) :: later) line
        let reason := Fault.unhashable keyValue.tag
        (evaluate (frames + 2) scope node).outcome before =
            (.ok (.error reason), before.replay (acts ++ keyActs)) ∧
          reason.message = "unusable as hash key: " ++ keyValue.tag.name ∧
          (chronicle (frames + 2) scope node before).acts =
            .entered (frames + 2) scope node :: (acts ++ keyActs ++ [.left (.ok (.error reason))]) := by
  constructor
  · intro before pairs writes acts enough written after
    refine ⟨Table.ofWrites writes, written.evaluate_map enough line, Table.keys_ofWrites writes,
      fun entry member => Table.latest_of_mem member,
      fun key => Value.indexed_ofWrites after.next key writes, ?_⟩
    intro positionNode key final place placed
    exact written.evaluate_index enough line placed place
  · intro before front writes acts keyNode valueNode later keyValue keyActs written keyed proper other node
      reason
    have stopped : chronicle (frames + 2) scope node before = _ :=
      written.chronicle_unhashable keyed proper other line
    refine ⟨?_, rfl, by rw [stopped]⟩
    rw [evaluate_outcome, stopped, Chronicle.outcome, Machine.replay_cons, Machine.replay_append _ (acts ++ keyActs)]
    rfl

/-- `{1: "a", true: "b", 1: "c"}[1]` is the last value written under `1`, and `{1: 2, []: puts(3)}` ends at
the array without printing. -/
theorem repeated_key_indexed :
    let pairs : List (Node × Node) := [(.integer 1 1, .string "a" 1), (.boolean true 1, .string "b" 1),
      (.integer 1 1, .string "c" 1)]
    let print : Node := .call (.identifier ⟨"puts", 1, 11⟩) [.integer 3 1] 1
    (∃ entries, (evaluate 4 0 (.map pairs 1)).outcome .empty =
        (.ok (.hash 0 entries), { Machine.empty with next := 1 }) ∧
      entries.map Prod.fst = [.integer 1, .boolean true]) ∧
    (evaluate 5 0 (.index (.map pairs 1) (.integer 1 1) 1)).outcome .empty =
      (.ok (.string "c"), { Machine.empty with next := 1 }) ∧
    (evaluate 4 0 (.map [(.integer 1 1, .integer 2 1), (.array [] 1, print)] 1)).outcome .empty =
      (.ok (.error (.unhashable .array)), { Machine.empty with next := 1 }) := by
  intro pairs print
  obtain ⟨acts, written, empty⟩ : ∃ acts, Written 2 0 .empty pairs
      [(.integer 1, .string "a"), (.boolean true, .string "b"), (.integer 1, .string "c")] acts ∧
        Machine.empty.replay acts = .empty :=
    ⟨_, .cons rfl rfl rfl (.cons rfl rfl rfl (.cons rfl rfl rfl .nil)), rfl⟩
  obtain ⟨before, front, same⟩ : ∃ acts, Written 2 0 .empty [(.integer 1 1, .integer 2 1)]
      [(.integer 1, .integer 2)] acts ∧ Machine.empty.replay acts = .empty :=
    ⟨_, .cons rfl rfl rfl .nil, rfl⟩
  rcases (map_literal_indexed 2 0 1).1 _ _ _ _ (Nat.le_refl 2) written with
    ⟨entries, made, keys, -, -, indexed⟩
  rw [empty] at made indexed
  refine ⟨⟨entries, made, keys⟩, indexed (.integer 1 1) (.integer 1) _ 1 rfl, ?_⟩
  have other : ∀ key : Key, Value.array 0 [] ≠ key.toValue := by
    intro key
    cases key <;> nofun
  have keyed : chronicle 2 0 (.array [] 1) (Machine.empty.replay before) =
      ⟨.ok (.array 0 []), [.entered 2 0 (.array [] 1), .made (.array 0 []), .left (.ok (.array 0 []))]⟩ := by
    rw [same]
    rfl
  have stopped := ((map_literal_indexed 2 0 1).2 _ _ _ _ (.array [] 1) print [] _ _ front keyed rfl other).1
  rw [Machine.replay_append, same] at stopped
  exact stopped

end Evaluation

end Marmoset
