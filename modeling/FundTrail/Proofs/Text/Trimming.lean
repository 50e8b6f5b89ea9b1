/-
  FundTrail.Proofs.Text.Trimming
  ──────────────────────────────
  **WHAT IS LEFT OF A TEXT WITHOUT THE BLANKS AROUND IT.**

  A text consists of blanks, of what is left of it when it is trimmed, and of blanks
  again; and what is left neither begins nor ends with a blank.  These two facts leave
  only one possibility, so a text may be taken apart in any way that has them.

  Main facts: `exists_blanks_around`, `trimmed_trimChars` and `trimChars_between`.
-/
import FundTrail.Text.Blank
import Mathlib.Data.List.DropRight

namespace FundTrail.Text

/-- No blank stands at either end. -/
structure Trimmed (cs : List Char) : Prop where
  head : ∀ c ∈ cs.head?, isBlank c = false
  last : ∀ c ∈ cs.getLast?, isBlank c = false

theorem trimChars_eq_rdropWhile (cs : List Char) :
    trimChars cs = (cs.dropWhile isBlank).rdropWhile isBlank := rfl

/-- A text of blanks alone, if of anything. -/
def IsBlankText (s : String) : Prop := ∀ c ∈ s.toList, isBlank c = true

/-- **Nothing but blanks is taken away.** -/
theorem exists_blanks_around (cs : List Char) :
    ∃ front back, (∀ c ∈ front, isBlank c = true) ∧ (∀ c ∈ back, isBlank c = true)
      ∧ cs = front ++ trimChars cs ++ back := by
  refine ⟨cs.takeWhile isBlank, (cs.dropWhile isBlank).rtakeWhile isBlank,
    fun c hc => List.mem_takeWhile_imp hc, fun c hc => List.mem_rtakeWhile_imp hc, ?_⟩
  rw [trimChars_eq_rdropWhile, List.append_assoc, List.rdropWhile_append_rtakeWhile,
    List.takeWhile_append_dropWhile]

/-- A run of characters that does not begin with a blank keeps its front. -/
theorem trimFront_of_head {cs : List Char} (h : ∀ c ∈ cs.head?, isBlank c = false) :
    trimFront cs = cs := by
  cases cs with
  | nil => rfl
  | cons c cs =>
    unfold trimFront
    rw [List.dropWhile_cons_of_neg (by rw [h c rfl]; exact Bool.false_ne_true)]

theorem trimFront_append_of_blanks {front : List Char} (h : ∀ c ∈ front, isBlank c = true)
    (cs : List Char) : trimFront (front ++ cs) = trimFront cs :=
  List.dropWhile_append_of_pos h

/-- **All blanks are taken away.** -/
theorem trimmed_trimChars (cs : List Char) : Trimmed (trimChars cs) := by
  have hfront : ∀ ds : List Char, ∀ c ∈ (trimFront ds).head?, isBlank c = false := by
    intro ds c hc
    have hnot := List.head?_dropWhile_not isBlank ds
    rw [show (ds.dropWhile isBlank).head? = some c from hc] at hnot
    simpa using hnot
  refine ⟨fun c hc => ?_, fun c hc => ?_⟩
  · -- what is left is the beginning of what is left when the front alone is trimmed
    obtain ⟨back, hback⟩ := List.rdropWhile_prefix isBlank (cs.dropWhile isBlank)
    refine hfront cs c ?_
    unfold trimFront
    rw [← hback, ← trimChars_eq_rdropWhile, List.head?_append, Option.mem_def.mp hc]
    rfl
  · unfold trimChars at hc
    rw [List.getLast?_reverse] at hc
    exact hfront _ c hc

/-- **There is no other way to take a text apart** into blanks, something without blanks
at its ends, and blanks. -/
theorem trimChars_between {front core back : List Char} (hfront : ∀ c ∈ front, isBlank c = true)
    (hcore : Trimmed core) (hback : ∀ c ∈ back, isBlank c = true) :
    trimChars (front ++ core ++ back) = core := by
  by_cases hnil : core = []
  · subst hnil
    refine trimChars_eq_nil_iff.mpr fun c hc => ?_
    rw [List.append_nil, List.mem_append] at hc
    exact hc.elim (hfront c) (hback c)
  have hhead : ∀ c ∈ (core ++ back).head?, isBlank c = false := by
    rw [List.head?_append_of_ne_nil _ hnil]
    exact hcore.head
  have hlast : ∀ c ∈ core.reverse.head?, isBlank c = false := by
    rw [List.head?_reverse]
    exact hcore.last
  unfold trimChars
  rw [List.append_assoc, trimFront_append_of_blanks hfront, trimFront_of_head hhead,
    List.reverse_append,
    trimFront_append_of_blanks fun c hc => hback c (List.mem_reverse.mp hc),
    trimFront_of_head hlast, List.reverse_reverse]

/-- Texts of blanks are trimmed to nothing, and no others are. -/
theorem trim_eq_empty_iff {s : String} : trim s = "" ↔ IsBlankText s := by
  unfold trim IsBlankText
  rw [← trimChars_eq_nil_iff, ← String.toList_inj, String.toList_ofList]
  rfl

end FundTrail.Text
