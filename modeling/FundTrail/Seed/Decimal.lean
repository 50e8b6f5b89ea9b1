/-
  FundTrail.Seed.Decimal
  ──────────────────────
  **DECIMAL NUMBERS, AND WHICH OF THEM ARE TOO LARGE.**

  A number in a document is a significand times a power of ten.  The significand
  has 64 bits: digits go into it as long as they fit, integer digits that do not
  fit count in the exponent, and decimals that do not fit are left out.

  The number stands for a double.  Significand and power of ten are rounded to
  53 bits before they are multiplied, and a product that rounds beyond the
  largest double is too large.  Small numbers are never too small.

  Main facts: `significand_lt` — 64 bits are enough for the significand — and
  `two_mul_le_roundShift`/`two_mul_roundShift_le`: rounding goes to a neighbour.
-/
import FundTrail.Word
import FundTrail.Bytes

namespace FundTrail.Seed

/-! ## §1. Rounding to a number of bits. -/

/-- The multiple of `2 ^ shift` next to `n`; from halfway it is the even one. -/
def roundShift (n shift : Nat) : Nat :=
  if 2 * (n % 2 ^ shift) < 2 ^ shift ∨ 2 * (n % 2 ^ shift) = 2 ^ shift ∧ n / 2 ^ shift % 2 = 0 then
    n / 2 ^ shift * 2 ^ shift
  else (n / 2 ^ shift + 1) * 2 ^ shift

/-- `n` rounded to `bits` significant bits. -/
def roundBits (bits n : Nat) : Nat := roundShift n (n.log2 + 1 - bits)

/-- Rounding takes away half a unit at most. -/
theorem two_mul_le_roundShift (n shift : Nat) : 2 * n ≤ 2 * roundShift n shift + 2 ^ shift := by
  have hn := Nat.div_add_mod n (2 ^ shift)
  have hlt := Nat.mod_lt n (Nat.two_pow_pos shift)
  rw [Nat.mul_comm] at hn
  unfold roundShift
  split
  next => omega
  next => rw [Nat.add_mul]; omega

/-- Rounding adds half a unit at most. -/
theorem two_mul_roundShift_le (n shift : Nat) : 2 * roundShift n shift ≤ 2 * n + 2 ^ shift := by
  have hn := Nat.div_add_mod n (2 ^ shift)
  rw [Nat.mul_comm] at hn
  unfold roundShift
  split
  next => omega
  next => rw [Nat.add_mul]; omega

/-! ## §2. Numbers. -/

/-- A decimal number without its sign. -/
structure Decimal where
  /-- The digits before the point. -/
  integer : List Nat
  /-- The digits behind it. -/
  decimals : List Nat
  exponent : Int
  deriving DecidableEq, Repr

namespace Decimal

/-- Take digits into a significand as long as they fit; the digits that are left. -/
def gather (m : Nat) : List Nat → Nat × List Nat
  | [] => (m, [])
  | d :: ds => if 10 * m + d < 2 ^ 64 then gather (10 * m + d) ds else (m, d :: ds)

theorem gather_lt {m : Nat} (h : m < 2 ^ 64) (ds : List Nat) : (gather m ds).1 < 2 ^ 64 := by
  induction ds generalizing m with
  | nil => exact h
  | cons d ds ih =>
    unfold gather
    split
    next hd => exact ih hd
    next => exact h

/-- The significand of the integer part, and the integer digits that are left. -/
def whole (x : Decimal) : Nat × List Nat := gather 0 x.integer

/-- The significand, and the decimals that are left. -/
def full (x : Decimal) : Nat × List Nat := gather x.whole.1 x.decimals

/-- The significand. -/
def significand (x : Decimal) : Nat := x.full.1

/-- The power of ten that the significand is multiplied with. -/
def scale (x : Decimal) : Int :=
  x.exponent + x.whole.2.length - (x.decimals.length - x.full.2.length : Nat)

theorem significand_lt (x : Decimal) : x.significand < 2 ^ 64 :=
  gather_lt (gather_lt (Nat.two_pow_pos 64) _) _

/-- Products from here on round beyond the largest double: halfway between it and
`2 ^ 1024`. -/
def limit : Nat := 2 ^ 1024 - 2 ^ 970

/-- Whether a number is beyond the largest double. -/
def isTooLarge (x : Decimal) : Bool :=
  x.significand ≠ 0 && 0 ≤ x.scale
    && (308 < x.scale
      || limit ≤ roundBits 53 x.significand * roundBits 53 (10 ^ x.scale.toNat))

end Decimal

end FundTrail.Seed
