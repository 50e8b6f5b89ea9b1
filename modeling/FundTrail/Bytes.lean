/-
  FundTrail.Bytes
  ───────────────
  **BYTE STRINGS: POSITIONAL NUMBERS, FIXED WIDTHS, HEXADECIMAL TEXT.**

  Keys, values and call data are lists of bytes.  This module holds the three
  readings that the rest of the library needs: a list as a number (least or most
  significant byte first), a list of a fixed length (addresses, hashes), and the
  hexadecimal text of a list.

  Main facts: `ofLittleEndian_littleEndian` and `littleEndian_ofLittleEndian` —
  `w` bytes and the numbers below `256 ^ w` are the same thing.
-/
import FundTrail.Word

namespace FundTrail

/-- A byte string. -/
abbrev Bytes := List UInt8

/-! ## §1. Positional numbers. -/

/-- The `w` bytes of `n`, least significant first. -/
def littleEndian : Nat → Nat → Bytes
  | 0, _ => []
  | w + 1, n => UInt8.ofNat (n % 256) :: littleEndian w (n / 256)

/-- The number whose bytes are given least significant first. -/
def ofLittleEndian : Bytes → Nat
  | [] => 0
  | b :: bs => b.toNat + 256 * ofLittleEndian bs

/-- The `w` bytes of `n`, most significant first. -/
def bigEndian (w n : Nat) : Bytes := (littleEndian w n).reverse

/-- The number whose bytes are given most significant first. -/
def ofBigEndian (bs : Bytes) : Nat := ofLittleEndian bs.reverse

@[simp] theorem length_littleEndian (w n : Nat) : (littleEndian w n).length = w := by
  induction w generalizing n with
  | zero => rfl
  | succ w ih => simp only [littleEndian, List.length_cons, ih]

@[simp] theorem length_bigEndian (w n : Nat) : (bigEndian w n).length = w := by
  simp [bigEndian]

theorem ofLittleEndian_append (as bs : Bytes) :
    ofLittleEndian (as ++ bs) = ofLittleEndian as + 256 ^ as.length * ofLittleEndian bs := by
  induction as with
  | nil => simp [ofLittleEndian]
  | cons a as ih =>
    rw [List.cons_append, ofLittleEndian, ofLittleEndian, ih, List.length_cons, Nat.pow_succ',
      Nat.mul_add, Nat.add_assoc, Nat.mul_assoc]

theorem ofLittleEndian_lt (bs : Bytes) : ofLittleEndian bs < 256 ^ bs.length := by
  induction bs with
  | nil => simp [ofLittleEndian]
  | cons b bs ih =>
    rw [ofLittleEndian, List.length_cons, Nat.pow_succ]
    have hb : b.toNat < 256 := b.toNat_lt
    omega

theorem ofBigEndian_lt (bs : Bytes) : ofBigEndian bs < 256 ^ bs.length := by
  have h := ofLittleEndian_lt bs.reverse
  rwa [List.length_reverse] at h

theorem ofLittleEndian_littleEndian {w n : Nat} (h : n < 256 ^ w) :
    ofLittleEndian (littleEndian w n) = n := by
  induction w generalizing n with
  | zero => rw [Nat.pow_zero] at h; simp [littleEndian, ofLittleEndian]; omega
  | succ w ih =>
    rw [Nat.pow_succ] at h
    rw [littleEndian, ofLittleEndian, ih (by omega), UInt8.toNat_ofNat']
    omega

theorem littleEndian_ofLittleEndian (bs : Bytes) :
    littleEndian bs.length (ofLittleEndian bs) = bs := by
  induction bs with
  | nil => rfl
  | cons b bs ih =>
    have hb : b.toNat < 256 := b.toNat_lt
    rw [List.length_cons, littleEndian, ofLittleEndian]
    congr 1
    · rw [Nat.add_mul_mod_self_left, Nat.mod_eq_of_lt hb, UInt8.ofNat_toNat]
    · rw [Nat.add_mul_div_left _ _ (by omega), Nat.div_eq_of_lt hb, Nat.zero_add, ih]

/-! ## §2. Hexadecimal text. -/

/-- The lower-case hexadecimal digit of a number below sixteen. -/
def hexDigit (n : Nat) : Char :=
  if n < 10 then Char.ofNat (48 + n) else Char.ofNat (87 + n)

/-- Two lower-case hexadecimal digits for each byte. -/
def hexText (bs : Bytes) : String :=
  String.ofList (bs.flatMap fun b => [hexDigit (b.toNat / 16), hexDigit (b.toNat % 16)])

/-! ## §3. Byte strings of a fixed length. -/

/-- A byte string of length `n`. -/
structure FixedBytes (n : Nat) where
  toList : Bytes
  length_toList : toList.length = n
  deriving DecidableEq, Repr

/-- Wallets, tokens, routers and factories are named by twenty bytes. -/
abbrev Address := FixedBytes 20

/-- Transactions and blocks are named by thirty-two bytes. -/
abbrev Hash := FixedBytes 32

namespace FixedBytes

variable {n : Nat}

/-- The byte string itself, if it has the right length. -/
def ofList? (bs : Bytes) : Option (FixedBytes n) :=
  if h : bs.length = n then some ⟨bs, h⟩ else none

/-- The first `n` bytes, with zero bytes for the missing ones. -/
def ofPrefix (bs : Bytes) : FixedBytes n :=
  ⟨bs.take n ++ List.replicate (n - bs.length) 0, by simp; omega⟩

/-- All bytes zero. -/
def zero : FixedBytes n := ⟨List.replicate n 0, List.length_replicate⟩

instance : Inhabited (FixedBytes n) := ⟨zero⟩

/-- The order of the numbers that the bytes spell, most significant byte first;
on byte strings of one length it is the lexicographic order. -/
instance : LT (FixedBytes n) := ⟨fun a b => a.toList < b.toList⟩

instance (a b : FixedBytes n) : Decidable (a < b) :=
  inferInstanceAs (Decidable (a.toList < b.toList))

/-- The text of an address or a hash: `0x` and two digits for each byte. -/
def text (b : FixedBytes n) : String := "0x" ++ hexText b.toList

@[ext] theorem ext {a b : FixedBytes n} (h : a.toList = b.toList) : a = b := by
  cases a; cases b; cases h; rfl

theorem ofList?_eq_some_iff {bs : Bytes} {b : FixedBytes n} :
    ofList? bs = some b ↔ bs = b.toList := by
  unfold ofList?
  constructor
  · intro h
    split at h
    next => injection h with h; subst h; rfl
    next => exact absurd h (by simp)
  · intro h
    subst h
    rw [dif_pos b.length_toList]

@[simp] theorem ofList?_toList (b : FixedBytes n) : ofList? b.toList = some b :=
  ofList?_eq_some_iff.2 rfl

end FixedBytes

/-! ## §4. The order of keys. -/

theorem ofBigEndian_cons (b : UInt8) (bs : Bytes) :
    ofBigEndian (b :: bs) = b.toNat * 256 ^ bs.length + ofBigEndian bs := by
  unfold ofBigEndian
  rw [List.reverse_cons, ofLittleEndian_append, List.length_reverse]
  simp only [ofLittleEndian, Nat.mul_zero, Nat.add_zero]
  rw [Nat.mul_comm, Nat.add_comm]

/-- Byte strings of one length come in the order of their numbers. -/
theorem ofBigEndian_lt_iff {a b : Bytes} (h : a.length = b.length) :
    ofBigEndian a < ofBigEndian b ↔ a < b := by
  induction a generalizing b with
  | nil =>
    obtain rfl := List.length_eq_zero_iff.mp h.symm
    exact ⟨fun h => absurd h (Nat.lt_irrefl _), fun h => absurd h (List.lt_irrefl [])⟩
  | cons x as ih =>
    cases b with
    | nil => exact nomatch h
    | cons y bs =>
      have hlength : as.length = bs.length := Nat.succ.inj h
      have ha := ofBigEndian_lt as
      have hb := ofBigEndian_lt bs
      rw [ofBigEndian_cons, ofBigEndian_cons, List.cons_lt_cons_iff, ← ih hlength]
      rw [hlength] at ha ⊢
      -- the rest counts only where the first bytes are the same
      rcases Nat.lt_trichotomy x.toNat y.toNat with hlt | heq | hgt
      · have hstep := Nat.mul_le_mul_right (256 ^ bs.length) hlt
        rw [Nat.succ_mul] at hstep
        exact ⟨fun _ => .inl (UInt8.lt_iff_toNat_lt.mpr hlt), fun _ => by omega⟩
      · obtain rfl := UInt8.toNat_inj.mp heq
        have hirrefl := UInt8.lt_irrefl x
        constructor
        · intro hless
          exact .inr ⟨rfl, by omega⟩
        · rintro (hless | ⟨-, hless⟩)
          · exact absurd hless hirrefl
          · omega
      · have hstep := Nat.mul_le_mul_right (256 ^ bs.length) hgt
        rw [Nat.succ_mul] at hstep
        constructor
        · intro hless
          omega
        · rintro (hless | ⟨rfl, -⟩)
          · have := UInt8.lt_iff_toNat_lt.mp hless
            omega
          · omega

/-- Of two different byte strings one comes first. -/
theorem Bytes.lt_or_eq_or_gt (a b : Bytes) : a < b ∨ a = b ∨ b < a := by
  by_cases h : a < b
  · exact .inl h
  · by_cases g : b < a
    · exact .inr (.inr g)
    · exact .inr (.inl (List.le_antisymm (List.not_lt.1 g) (List.not_lt.1 h)))

end FundTrail
