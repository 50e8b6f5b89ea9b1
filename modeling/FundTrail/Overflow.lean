/-
  FundTrail.Overflow
  ──────────────────
  **SUMS OF WORDS THAT DO NOT FIT.**

  A plain sum of words may be too large for a word.  What then becomes of it is
  settled when the program is built: a checked build panics, any other goes on
  with the low bits.  A panic is no error that anybody handles, so it is kept
  apart from those (`Stop`).

  Main facts: `plus?_eq_some_iff` and `plus?_eq_none_iff`; and `plus?_plus?`, by
  which a run of sums is one sum, up to the first that panics.
-/
import FundTrail.Word

namespace FundTrail

/-- What becomes of a sum that does not fit. -/
inductive Overflow where
  | panics
  | wraps
  deriving DecidableEq, Repr

/-- Why something has come to an end before its time. -/
inductive Stop (ε : Type) where
  | failed (error : ε)
  | panicked
  deriving DecidableEq, Repr

namespace Word

variable {bits : Nat} {o : Overflow} {a b : Word bits} {m n : Nat}

/-- `n` more; none stands for a panic. -/
def plus? (o : Overflow) (a : Word bits) (n : Nat) : Option (Word bits) :=
  match o with
  | .panics => ofNat? (a.toNat + n)
  | .wraps => some (lowBits (a.toNat + n))

theorem plus?_eq_some_iff : a.plus? o n = some b
    ↔ b.toNat = (a.toNat + n) % 2 ^ bits ∧ (o = .panics → a.toNat + n < 2 ^ bits) := by
  cases o with
  | panics =>
    refine ofNat?_eq_some_iff.trans ⟨fun h => ?_, fun ⟨h, hlt⟩ => ?_⟩
    · have hlt : a.toNat + n < 2 ^ bits := h ▸ b.toNat_lt
      exact ⟨h.trans (Nat.mod_eq_of_lt hlt).symm, fun _ => hlt⟩
    · exact h.trans (Nat.mod_eq_of_lt (hlt rfl))
  | wraps =>
    refine ⟨fun h => ?_, fun ⟨h, _⟩ => congrArg some (Word.ext h.symm)⟩
    rw [← Option.some.inj h]
    exact ⟨rfl, nofun⟩

theorem plus?_eq_none_iff : a.plus? o n = none ↔ o = .panics ∧ 2 ^ bits ≤ a.toNat + n := by
  cases o with
  | panics => exact ofNat?_eq_none_iff.trans ⟨fun h => ⟨rfl, h⟩, fun h => h.2⟩
  | wraps => exact ⟨nofun, nofun⟩

/-- A sum that fits is the sum. -/
theorem plus?_of_lt (h : a.toNat + n < 2 ^ bits) : a.plus? o n = some ⟨a.toNat + n, h⟩ :=
  plus?_eq_some_iff.mpr ⟨(Nat.mod_eq_of_lt h).symm, fun _ => h⟩

theorem plus?_zero : a.plus? o 0 = some a := plus?_of_lt a.toNat_lt

/-- The word behind the last one is reached by no panic. -/
theorem plus?_one_of_lt (h : a.toNat + 1 < 2 ^ bits) : a.plus? o 1 = some a.next := by
  rw [plus?_of_lt h]
  refine congrArg some (Word.ext ?_)
  show a.toNat + 1 = min (a.toNat + 1) (2 ^ bits - 1)
  omega

/-- **One sum after the other is the sum of both.** -/
theorem plus?_plus? (h : a.plus? o m = some b) : b.plus? o n = a.plus? o (m + n) := by
  obtain ⟨hb, hfits⟩ := plus?_eq_some_iff.mp h
  cases o with
  | panics =>
    rw [Nat.mod_eq_of_lt (hfits rfl)] at hb
    show ofNat? (b.toNat + n) = ofNat? (a.toNat + (m + n))
    rw [hb, Nat.add_assoc]
  | wraps =>
    refine congrArg some (Word.ext ?_)
    rw [toNat_lowBits, toNat_lowBits, hb, Nat.mod_add_mod, Nat.add_assoc]

/-- What is more than too much is too much. -/
theorem plus?_eq_none_of_le (h : a.plus? o m = none) (hle : m ≤ n) : a.plus? o n = none := by
  obtain ⟨ho, hm⟩ := plus?_eq_none_iff.mp h
  exact plus?_eq_none_iff.mpr ⟨ho, by omega⟩

end Word

end FundTrail
