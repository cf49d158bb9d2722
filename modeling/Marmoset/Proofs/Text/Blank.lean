import Mathlib.Data.List.Infix
import Mathlib.Data.List.TakeWhile
import Marmoset.Text.Blank
import Marmoset.Text.Search

/-!
Blank space around a text, and texts inside other texts: what trimming and searching compute, said of the
characters alone.
-/

namespace Marmoset.Text

theorem holds_iff (part text : List Char) : holds part text = true ↔ part <:+: text := by
  induction text with
  | nil => rw [holds, List.isEmpty_iff, List.infix_nil]
  | cons c text ih => rw [holds, Bool.or_eq_true, List.isPrefixOf_iff_prefix, ih, List.infix_cons_iff]

def Blank (text : List Char) : Prop := ∀ c ∈ text, isSpace c = true

theorem dropWhile_blank {before : List Char} (blank : Blank before) (text : List Char) :
    (before ++ text).dropWhile isSpace = text.dropWhile isSpace := by
  rw [List.dropWhile_append, List.dropWhile_eq_nil_iff.mpr blank]
  rfl

theorem trimChars_split (text : List Char) :
    ∃ before behind, text = before ++ trimChars text ++ behind ∧ Blank before ∧ Blank behind := by
  refine ⟨text.takeWhile isSpace, ((text.dropWhile isSpace).reverse.takeWhile isSpace).reverse, ?_, ?_, ?_⟩
  · rw [trimChars, List.append_assoc, ← List.reverse_append, List.takeWhile_append_dropWhile,
      List.reverse_reverse, List.takeWhile_append_dropWhile]
  · exact fun c member => List.mem_takeWhile_imp member
  · exact fun c member => List.mem_takeWhile_imp (List.mem_reverse.mp member)

theorem trimChars_eq_nil {text : List Char} : trimChars text = [] ↔ Blank text := by
  constructor
  · intro trimmed
    obtain ⟨before, behind, whole, front, back⟩ := trimChars_split text
    rw [trimmed, List.append_nil] at whole
    rw [whole]
    exact List.forall_mem_append.mpr ⟨front, back⟩
  · intro blank
    rw [trimChars, List.dropWhile_eq_nil_iff.mpr blank]
    rfl

/-- Blank space around a word that starts and ends with other characters is what trimming takes off. -/
theorem trimChars_eq_word {word text : List Char} (filled : word ≠ [])
    (starts : word.dropWhile isSpace = word) (ends : word.reverse.dropWhile isSpace = word.reverse) :
    trimChars text = word ↔ ∃ before behind, text = before ++ word ++ behind ∧ Blank before ∧ Blank behind := by
  constructor
  · rintro rfl
    exact trimChars_split text
  · rintro ⟨before, behind, rfl, front, back⟩
    have inner : (word ++ behind).dropWhile isSpace = word ++ behind := by
      rw [List.dropWhile_append, starts, if_neg (by simpa using filled)]
    have blank : Blank behind.reverse := fun c member => back c (List.mem_reverse.mp member)
    rw [trimChars, List.append_assoc, dropWhile_blank front, inner, List.reverse_append,
      dropWhile_blank blank, ends, List.reverse_reverse]

theorem trim_ne_empty {text : String} : trim text ≠ "" ↔ ∃ c ∈ text.toList, isSpace c = false := by
  rw [trim, ne_eq, String.ofList_eq_empty_iff, trimChars_eq_nil, Blank]
  simp

end Marmoset.Text
