import Mathlib.Data.List.Induction
import Mathlib.Data.List.Nodup
import Marmoset.Table

/-!
Tables that are written again and again. A key keeps the place of its first write and holds what was
written last, so the whole table can be told from the list of writes.
-/

namespace Marmoset.Table

variable {κ α : Type} [DecidableEq κ] {table writes : List (κ × α)} {key other : κ} {value : α}

/-- The table that writes leave, from the first to the last. -/
def ofWrites (writes : List (κ × α)) : List (κ × α) :=
  writes.foldl (fun table entry => write entry.1 entry.2 table) []

/-- What is written last under a key. -/
def latest (key : κ) (writes : List (κ × α)) : Option α := find? key writes.reverse

theorem mem_of_find? (found : find? key table = some value) : (key, value) ∈ table := by
  induction table with
  | nil => cases found
  | cons entry table ih =>
      rw [find?_cons] at found
      split at found
      · next same =>
          cases found
          rw [← same]
          exact List.mem_cons_self
      · exact List.mem_cons_of_mem _ (ih found)

theorem mem_write {entry : κ × α} (member : entry ∈ write key value table) :
    entry = (key, value) ∨ entry ∈ table := by
  induction table with
  | nil => exact .inl (List.mem_singleton.mp member)
  | cons first table ih =>
      simp only [write] at member
      split at member <;> simp only [List.mem_cons] at member ⊢ <;> grind

theorem write_map {β : Type} (change : α → β) (key : κ) (value : α) (table : List (κ × α)) :
    write key (change value) (table.map fun entry => (entry.1, change entry.2)) =
      (write key value table).map fun entry => (entry.1, change entry.2) := by
  induction table with
  | nil => rfl
  | cons entry table ih =>
      simp only [List.map_cons, write]
      split
      · rfl
      · rw [ih, List.map_cons]

theorem find?_map {β : Type} (change : α → β) (key : κ) (table : List (κ × α)) :
    find? key (table.map fun entry => (entry.1, change entry.2)) = (find? key table).map change := by
  induction table with
  | nil => rfl
  | cons entry table ih =>
      simp only [List.map_cons, find?_cons]
      split
      · rfl
      · exact ih

theorem keys_write : (write key value table).map Prod.fst =
    if key ∈ table.map Prod.fst then table.map Prod.fst else table.map Prod.fst ++ [key] := by
  induction table with
  | nil => rfl
  | cons entry table ih =>
      rcases entry with ⟨other, old⟩
      simp only [write]
      split <;> grind

theorem nodup_write (distinct : (table.map Prod.fst).Nodup) :
    ((write key value table).map Prod.fst).Nodup := by
  rw [keys_write]
  split
  · exact distinct
  · next new => exact List.nodup_append.mpr ⟨distinct, by simp, by grind⟩

theorem find?_foldl_write (unwritten : ∀ entry ∈ writes, entry.1 ≠ key) (table : List (κ × α)) :
    find? key (writes.foldl (fun table entry => write entry.1 entry.2 table) table) = find? key table := by
  induction writes generalizing table with
  | nil => rfl
  | cons entry writes ih =>
      rw [List.forall_mem_cons] at unwritten
      rw [List.foldl_cons, ih unwritten.2, find?_write, if_neg unwritten.1]

theorem ofWrites_concat (writes : List (κ × α)) (entry : κ × α) :
    ofWrites (writes ++ [entry]) = write entry.1 entry.2 (ofWrites writes) :=
  List.foldl_concat ..

theorem latest_concat (writes : List (κ × α)) (entry : κ × α) :
    latest key (writes ++ [entry]) = if entry.1 = key then some entry.2 else latest key writes := by
  rw [latest, List.reverse_concat, find?_cons]
  rfl

theorem latest_map {β : Type} (change : κ → α → β) (key : κ) (writes : List (κ × α)) :
    latest key (writes.map fun entry => (entry.1, change entry.1 entry.2)) =
      (latest key writes).map (change key) := by
  induction writes using List.reverseRecOn with
  | nil => rfl
  | append_singleton writes entry ih =>
      rw [List.map_append, List.map_singleton, latest_concat, latest_concat, ih]
      split
      · next same => rw [same, Option.map_some]
      · rfl

theorem mem_of_latest (found : latest key writes = some value) : (key, value) ∈ writes :=
  List.mem_reverse.mp (mem_of_find? found)

theorem eraseDups_concat (keys : List κ) (key : κ) :
    (keys ++ [key]).eraseDups = if key ∈ keys then keys.eraseDups else keys.eraseDups ++ [key] := by
  rw [List.eraseDups_append]
  split
  · next old => simp [List.removeAll, old]
  · next new => simp [List.removeAll, new, List.eraseDups_cons]

theorem keys_ofWrites (writes : List (κ × α)) :
    (ofWrites writes).map Prod.fst = (writes.map Prod.fst).eraseDups := by
  induction writes using List.reverseRecOn with
  | nil => rfl
  | append_singleton writes entry ih =>
      simp only [ofWrites_concat, keys_write, ih, List.map_append, List.map_singleton, eraseDups_concat,
        List.mem_eraseDups]

theorem nodup_ofWrites (writes : List (κ × α)) : ((ofWrites writes).map Prod.fst).Nodup := by
  induction writes using List.reverseRecOn with
  | nil => exact List.nodup_nil
  | append_singleton writes entry ih =>
      rw [ofWrites_concat]
      exact nodup_write ih

/-- Under a key a table holds what was written last. -/
theorem find?_ofWrites (key : κ) (writes : List (κ × α)) :
    find? key (ofWrites writes) = latest key writes := by
  induction writes using List.reverseRecOn with
  | nil => rfl
  | append_singleton writes entry ih => rw [ofWrites_concat, find?_write, latest_concat, ih]

theorem find?_of_mem {entry : κ × α} (distinct : (table.map Prod.fst).Nodup) (member : entry ∈ table) :
    find? entry.1 table = some entry.2 := by
  induction table with
  | nil => cases member
  | cons first table ih =>
      rw [List.map_cons, List.nodup_cons] at distinct
      rw [find?_cons]
      rcases List.mem_cons.mp member with rfl | later
      · rw [if_pos rfl]
      · have apart : first.1 ≠ entry.1 := fun same =>
          distinct.1 (same ▸ List.mem_map_of_mem later)
        rw [if_neg apart]
        exact ih distinct.2 later

theorem latest_of_mem {entry : κ × α} (member : entry ∈ ofWrites writes) :
    latest entry.1 writes = some entry.2 := by
  rw [← find?_ofWrites]
  exact find?_of_mem (nodup_ofWrites writes) member

end Marmoset.Table
