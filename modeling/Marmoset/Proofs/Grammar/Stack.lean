import Marmoset.Proofs.Grammar.Abreast

/-!
What the size of the stack decides: a smaller stack may break reading off, and changes nothing else.
-/

namespace Marmoset

/-- The reading was broken off because phrases nest too deep. -/
def Reading.BrokenOff (reading : Reading) : Prop :=
  ∃ line, ⟨.nestedTooDeep, line⟩ ∈ reading.diagnostics

def Track.fewer : Track .same where
  near := Eq
  onward := True
  braced := True
  scarce := True
  current := fun same => same ▸ rfl
  peek := fun same _ => same ▸ rfl
  advance := fun same _ => same ▸ rfl
  report := fun _ same equal => same ▸ equal ▸ rfl
  depth := by
    rintro left right before behind rfl rfl
    exact Iff.rfl
  opened := fun _ _ => trivial
  behind := fun _ same => .inl (same ▸ rfl)
  resumed := fun _ same => .inl (same ▸ rfl)

namespace Grammar

/-- On a smaller stack the same is read, or the reading is broken off. -/
theorem readTokens_within (less more : Nat) (order : less ≤ more) (tokens : List Token) :
    readTokens less tokens = readTokens more tokens ∨
      ∃ reading, readTokens less tokens = .ok reading ∧ reading.BrokenOff := by
  have abreast : (program less tokens).Abreast .fewer (tokens.length + 1) (fun _ => True)
      (List.Forall₂ Congruence.same.statement) (program more tokens) :=
    program_abreast .fewer trivial trivial less more (.inr ⟨trivial, order⟩) (tokens.length + 1)
      (tokens.length + 1) rfl (Nat.lt_succ_self _) (Nat.lt_succ_self _)
  have broken (after : Cursor) :
      Reading.BrokenOff ⟨[], (after.report .nestedTooDeep after.current.line).diagnostics⟩ :=
    ⟨after.current.line, List.mem_append_right _ List.mem_cons_self⟩
  rw [readTokens, readTokens]
  generalize program less tokens = first at abreast
  generalize program more tokens = second at abreast
  cases abreast with
  | read same near few _ =>
      cases near
      exact .inl (by rw [eq_of_forall₂ same])
  | failed near few => exact .inl (near ▸ rfl)
  | tooDeep near => exact .inr ⟨_, rfl, broken _⟩
  | scarce _ => exact .inr ⟨_, rfl, broken _⟩
  | abandoned near kind malformed => exact .inl rfl
  | parted parts void => exact absurd trivial parts.2

end Grammar

end Marmoset
