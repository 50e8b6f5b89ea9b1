/-
  FundTrail.Text.Blank
  ────────────────────
  **BLANKS AT THE ENDS OF A TEXT.**

  Settings and exchange names may be surrounded by blanks, which do not count.
  A blank is any character that Unicode classes as white space, so core's test,
  which knows only the ASCII ones, is not enough.

  Main facts: `isBlank_of_isWhitespace` — core's blanks are blanks — and
  `trimChars_eq_nil_iff` — only blanks trim to nothing.
-/

namespace FundTrail.Text

/-- White space in the sense of Unicode. -/
def isBlank (c : Char) : Bool :=
  (0x09 ≤ c.toNat && c.toNat ≤ 0x0d) || c.toNat == 0x20 || c.toNat == 0x85
    || c.toNat == 0xa0 || c.toNat == 0x1680
    || (0x2000 ≤ c.toNat && c.toNat ≤ 0x200a)
    || c.toNat == 0x2028 || c.toNat == 0x2029 || c.toNat == 0x202f
    || c.toNat == 0x205f || c.toNat == 0x3000

/-- The characters without the blanks in front. -/
def trimFront (cs : List Char) : List Char := cs.dropWhile isBlank

/-- The characters without the blanks at either end. -/
def trimChars (cs : List Char) : List Char :=
  (trimFront (trimFront cs).reverse).reverse

/-- The text without the blanks at either end. -/
def trim (s : String) : String := String.ofList (trimChars s.toList)

theorem isBlank_of_isWhitespace {c : Char} (h : c.isWhitespace = true) : isBlank c = true := by
  simp only [Char.isWhitespace, Bool.or_eq_true, decide_eq_true_eq] at h
  rcases h with ((h | h) | h) | h <;> subst h <;> decide

theorem trimFront_eq_nil_iff {cs : List Char} :
    trimFront cs = [] ↔ ∀ c ∈ cs, isBlank c = true := by
  induction cs with
  | nil => simp [trimFront]
  | cons c cs ih =>
    by_cases h : isBlank c = true
    · have hc : trimFront (c :: cs) = trimFront cs := by simp [trimFront, h]
      rw [hc, ih]; simp [h]
    · simp [trimFront, h]

/-- **Only blanks trim to nothing.** -/
theorem trimChars_eq_nil_iff {cs : List Char} :
    trimChars cs = [] ↔ ∀ c ∈ cs, isBlank c = true := by
  rw [trimChars, List.reverse_eq_nil_iff, trimFront_eq_nil_iff]
  constructor
  · intro h
    rw [← trimFront_eq_nil_iff]
    by_cases hn : trimFront cs = []
    · exact hn
    · obtain ⟨d, ds, hd⟩ := List.exists_cons_of_ne_nil hn
      have hb : isBlank d = true := h d (by simp [hd])
      have hf := List.head?_dropWhile_not isBlank cs
      rw [show cs.dropWhile isBlank = d :: ds from hd] at hf
      simp [hb] at hf
  · intro h c hc
    have hc' : c ∈ cs.dropWhile isBlank := List.mem_reverse.1 hc
    exact h c ((List.dropWhile_sublist _).subset hc')

end FundTrail.Text
