/-
  FundTrail.Word
  ──────────────
  **BOUNDED NATURALS.**

  Amounts of wei, counters and block heights are natural numbers below a fixed
  power of two.  A `Word bits` carries its bound, so an operation has to say
  what happens at the top: it stops there (`satAdd`), or it refuses (`ofNat?`).

  Main facts: `toNat_satAdd` — a saturating sum is the sum cut off at the
  largest word — and `satAdd_assoc`/`satAdd_comm`, which make the order of a run
  of additions irrelevant also after it has saturated.
-/

-- a power of naturals is the plain one, also where algebra offers others
attribute [instance (1100), default_instance 20000] instPowNat

namespace FundTrail

/-- A natural number below `2 ^ bits`. -/
structure Word (bits : Nat) where
  toNat : Nat
  toNat_lt : toNat < 2 ^ bits
  deriving DecidableEq, Repr

/-- Sums of wei and token base units. -/
abbrev Amount := Word 256

/-- Occurrence counters. -/
abbrev Count := Word 64

/-- Block numbers. -/
abbrev Height := Word 64

namespace Word

variable {bits : Nat}

/-! ## §1. Building words. -/

/-- The largest word. -/
def top : Word bits :=
  ⟨2 ^ bits - 1, Nat.sub_lt (Nat.two_pow_pos bits) Nat.one_pos⟩

/-- `n` itself when it fits, the largest word when it does not. -/
def clamp (n : Nat) : Word bits :=
  ⟨min n (2 ^ bits - 1), by have := Nat.two_pow_pos bits; omega⟩

/-- `n` as a word, if it fits. -/
def ofNat? (n : Nat) : Option (Word bits) :=
  if h : n < 2 ^ bits then some ⟨n, h⟩ else none

/-- The low `bits` bits of `n`. -/
def lowBits (n : Nat) : Word bits :=
  ⟨n % 2 ^ bits, Nat.mod_lt _ (Nat.two_pow_pos bits)⟩

instance : OfNat (Word bits) 0 := ⟨⟨0, Nat.two_pow_pos bits⟩⟩

instance : Inhabited (Word bits) := ⟨0⟩

instance : LT (Word bits) := ⟨fun a b => a.toNat < b.toNat⟩

instance : LE (Word bits) := ⟨fun a b => a.toNat ≤ b.toNat⟩

instance (a b : Word bits) : Decidable (a < b) :=
  inferInstanceAs (Decidable (a.toNat < b.toNat))

instance (a b : Word bits) : Decidable (a ≤ b) :=
  inferInstanceAs (Decidable (a.toNat ≤ b.toNat))

@[ext] theorem ext {a b : Word bits} (h : a.toNat = b.toNat) : a = b := by
  cases a; cases b; cases h; rfl

@[simp] theorem toNat_zero : (0 : Word bits).toNat = 0 := rfl

@[simp] theorem toNat_top : (top : Word bits).toNat = 2 ^ bits - 1 := rfl

@[simp] theorem toNat_clamp (n : Nat) :
    (clamp n : Word bits).toNat = min n (2 ^ bits - 1) := rfl

@[simp] theorem toNat_lowBits (n : Nat) :
    (lowBits n : Word bits).toNat = n % 2 ^ bits := rfl

theorem toNat_lowBits_of_lt {n : Nat} (h : n < 2 ^ bits) :
    (lowBits n : Word bits).toNat = n := Nat.mod_eq_of_lt h

theorem toNat_le_top (a : Word bits) : a.toNat ≤ 2 ^ bits - 1 := by
  have := a.toNat_lt; omega

theorem ofNat?_eq_some_iff {n : Nat} {w : Word bits} :
    ofNat? n = some w ↔ w.toNat = n := by
  unfold ofNat?
  constructor
  · intro h
    split at h
    next => injection h with h; subst h; rfl
    next => exact absurd h (by simp)
  · intro h
    subst h
    rw [dif_pos w.toNat_lt]

theorem ofNat?_eq_none_iff {n : Nat} :
    (ofNat? n : Option (Word bits)) = none ↔ 2 ^ bits ≤ n := by
  unfold ofNat?
  split
  next h => simp; omega
  next h => simp; omega

/-! ## §2. Addition that stops at the top. -/

/-- The sum, or the largest word when the sum does not fit. -/
def satAdd (a b : Word bits) : Word bits := clamp (a.toNat + b.toNat)

@[simp] theorem toNat_satAdd (a b : Word bits) :
    (satAdd a b).toNat = min (a.toNat + b.toNat) (2 ^ bits - 1) := rfl

/-- One more, unless that does not fit. -/
def next (a : Word bits) : Word bits := clamp (a.toNat + 1)

@[simp] theorem toNat_next (a : Word bits) :
    a.next.toNat = min (a.toNat + 1) (2 ^ bits - 1) := rfl

theorem satAdd_comm (a b : Word bits) : satAdd a b = satAdd b a := by
  ext; simp only [toNat_satAdd, Nat.add_comm]

theorem satAdd_assoc (a b c : Word bits) :
    satAdd (satAdd a b) c = satAdd a (satAdd b c) := by
  ext; simp only [toNat_satAdd]; omega

theorem le_satAdd (a b : Word bits) : a ≤ satAdd a b := by
  show a.toNat ≤ min (a.toNat + b.toNat) (2 ^ bits - 1)
  have := a.toNat_le_top; omega

@[simp] theorem satAdd_zero (a : Word bits) : satAdd a 0 = a := by
  ext; have := a.toNat_le_top; simp; omega

end Word

end FundTrail
