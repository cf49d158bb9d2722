/-!
Tables of keys and what stands under them. A key that is written again keeps the place of its first
write.
-/

namespace Marmoset.Table

variable {κ α : Type} [DecidableEq κ] {table : List (κ × α)} {key other : κ} {value : α}

def write (key : κ) (value : α) : List (κ × α) → List (κ × α)
  | [] => [(key, value)]
  | (other, old) :: rest =>
    if other = key then (key, value) :: rest else (other, old) :: write key value rest

def find? (key : κ) : List (κ × α) → Option α
  | [] => none
  | (other, value) :: rest => if other = key then some value else find? key rest

theorem find?_cons (entry : κ × α) (table : List (κ × α)) :
    find? key (entry :: table) = if entry.1 = key then some entry.2 else find? key table := rfl

theorem find?_write : find? other (write key value table) =
    if key = other then some value else find? other table := by
  induction table with
  | nil => rfl
  | cons entry table ih =>
      by_cases same : entry.1 = key
      · subst same
        simp only [write, if_true, find?_cons]
        split <;> rfl
      · simp only [write, same, if_false, find?_cons, ih]
        by_cases wanted : entry.1 = other
        · subst wanted
          rw [if_pos rfl, if_neg (Ne.symm same), if_pos rfl]
        · rw [if_neg wanted, if_neg wanted]

end Marmoset.Table
