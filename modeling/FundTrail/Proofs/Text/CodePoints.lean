/-
  FundTrail.Proofs.Text.CodePoints
  ────────────────────────────────
  **UTF-8 KEEPS THE ORDER OF TEXTS.**

  The bytes of a character are its digits in base 64, the first of them raised above all
  first bytes of shorter characters.  So of two characters the lower one has the lower
  bytes, whatever follows; and texts come in the order of their bytes, also where one of
  them begins the other.

  Main facts: `utf8EncodeChar_append_lt` and `write_lt_iff`.
-/
import FundTrail.Proofs.Store.Fields
import Mathlib.Data.String.Basic

namespace FundTrail.Utf8

/-! ## §1. Digits in base 64. -/

/-- The last `k` digits of a number, as the bytes that continue a character. -/
def continuation : Nat → Nat → Bytes
  | 0, _ => []
  | k + 1, n => UInt8.ofNat (n / 64 ^ k % 64 + 128) :: continuation k n

theorem ofNat_lt_ofNat {m n : Nat} (h : m < n) (hn : n < 256) : UInt8.ofNat m < UInt8.ofNat n := by
  rw [UInt8.lt_iff_toNat_lt, UInt8.toNat_ofNat_of_lt' (Nat.lt_trans h hn),
    UInt8.toNat_ofNat_of_lt' hn]
  exact h

/-- Of two numbers with the same digits before them the lower one has the lower digits. -/
theorem continuation_append_lt {k m n : Nat} (h : m < n) (hsame : m / 64 ^ k = n / 64 ^ k)
    (as bs : Bytes) : continuation k m ++ as < continuation k n ++ bs := by
  induction k with
  | zero =>
    rw [Nat.pow_zero, Nat.div_one, Nat.div_one] at hsame
    exact absurd hsame (Nat.ne_of_lt h)
  | succ k ih =>
    have hhigher : m / 64 ^ k / 64 = n / 64 ^ k / 64 := by
      rwa [Nat.div_div_eq_div_mul, Nat.div_div_eq_div_mul]
    rcases Nat.lt_or_eq_of_le (Nat.div_le_div_right (c := 64 ^ k) (Nat.le_of_lt h)) with hlt | heq
    · exact List.cons_lt_cons_iff.mpr (.inl (ofNat_lt_ofNat (by omega) (by omega)))
    · have hbyte : UInt8.ofNat (m / 64 ^ k % 64 + 128) = UInt8.ofNat (n / 64 ^ k % 64 + 128) := by
        rw [heq]
      exact List.cons_lt_cons_iff.mpr (.inr ⟨hbyte, ih heq⟩)

/-! ## §2. Characters. -/

/-- How many bytes follow the first one of a character. -/
def tailLength (n : Nat) : Nat :=
  if n ≤ 0x7f then 0 else if n ≤ 0x7ff then 1 else if n ≤ 0xffff then 2 else 3

/-- Where the first bytes begin that so many others follow. -/
def leadFloor : Nat → Nat
  | 0 => 0
  | 1 => 0xc0
  | 2 => 0xe0
  | 3 => 0xf0
  | _ => 0x100

/-- The first byte of a character with so many behind it. -/
def leadByte (k n : Nat) : Nat := leadFloor k + n / 64 ^ k

theorem tailLength_le_three (n : Nat) : tailLength n ≤ 3 := by
  unfold tailLength
  repeat' split
  all_goals omega

theorem tailLength_mono {m n : Nat} (h : m ≤ n) : tailLength m ≤ tailLength n := by
  unfold tailLength
  repeat' split
  all_goals omega

theorem leadFloor_mono : ∀ k ≤ 4, ∀ j ≤ k, leadFloor j ≤ leadFloor k := by decide

/-- The first bytes of longer characters begin where those of shorter ones end. -/
theorem leadByte_lt_leadFloor {n : Nat} (hn : n < 0x110000) :
    leadByte (tailLength n) n < leadFloor (tailLength n + 1) := by
  unfold tailLength
  repeat' split
  all_goals
    simp only [leadByte, leadFloor]
    omega

theorem toNat_val_lt (c : Char) : c.val.toNat < 0x110000 := by
  have h := c.valid
  simp only [UInt32.isValidChar, Nat.isValidChar] at h
  omega

/-- **A character is its digits in base 64,** the first of them raised. -/
theorem utf8EncodeChar_eq (c : Char) :
    String.utf8EncodeChar c = UInt8.ofNat (leadByte (tailLength c.val.toNat) c.val.toNat)
      :: continuation (tailLength c.val.toNat) c.val.toNat := by
  have hc := toNat_val_lt c
  unfold String.utf8EncodeChar tailLength
  simp only
  generalize c.val.toNat = n at hc
  -- the first digit is small enough for the bits that it gets
  have htwo : n ≤ 0x7ff → n / 64 % 32 = n / 64 := by omega
  have hthree : n ≤ 0xffff → n / 4096 % 16 = n / 4096 := by omega
  have hfour : n / 262144 % 8 = n / 262144 := by omega
  split
  next => simp [leadByte, leadFloor, continuation]
  next =>
    split
    next h => simp [leadByte, leadFloor, continuation, htwo h, Nat.add_comm]
    next =>
      split
      next h => simp [leadByte, leadFloor, continuation, hthree h, Nat.add_comm]
      next => simp [leadByte, leadFloor, continuation, hfour, Nat.add_comm]

/-- **The lower of two characters has the lower bytes,** whatever stands behind them. -/
theorem utf8EncodeChar_append_lt {c d : Char} (h : c < d) (as bs : Bytes) :
    String.utf8EncodeChar c ++ as < String.utf8EncodeChar d ++ bs := by
  have hlt : c.val.toNat < d.val.toNat := h
  have hc := leadByte_lt_leadFloor (toNat_val_lt c)
  have hd := leadByte_lt_leadFloor (toNat_val_lt d)
  have hbyte := Nat.lt_of_lt_of_le hd
    (leadFloor_mono 4 (Nat.le_refl 4) _ (Nat.succ_le_succ (tailLength_le_three _)))
  rw [utf8EncodeChar_eq, utf8EncodeChar_eq, List.cons_append, List.cons_append,
    List.cons_lt_cons_iff]
  rcases Nat.lt_or_eq_of_le (tailLength_mono (Nat.le_of_lt hlt)) with hshorter | hsame
  · refine .inl (ofNat_lt_ofNat (Nat.lt_of_lt_of_le hc ?_) hbyte)
    exact Nat.le_trans
      (leadFloor_mono _ (Nat.le_succ_of_le (tailLength_le_three _)) _ hshorter)
      (Nat.le_add_right _ _)
  · -- characters of one length: the first digit decides, or the others do
    rw [hsame]
    rcases Nat.lt_or_eq_of_le (Nat.div_le_div_right (c := 64 ^ tailLength d.val.toNat)
      (Nat.le_of_lt hlt)) with hdigit | hdigit
    · exact .inl (ofNat_lt_ofNat (Nat.add_lt_add_left hdigit _) hbyte)
    · refine .inr ⟨?_, continuation_append_lt hlt hdigit as bs⟩
      unfold leadByte
      rw [hdigit]

/-! ## §3. Texts. -/

theorem flatMap_utf8EncodeChar_lt {cs ds : List Char} (h : cs < ds) :
    cs.flatMap String.utf8EncodeChar < ds.flatMap String.utf8EncodeChar := by
  induction cs generalizing ds with
  | nil =>
    cases ds with
    | nil => exact absurd h (List.lt_irrefl _)
    | cons d ds =>
      rw [List.flatMap_nil, List.flatMap_cons, utf8EncodeChar_eq, List.cons_append]
      exact List.nil_lt_cons _ _
  | cons c cs ih =>
    cases ds with
    | nil => exact absurd h (List.not_lt_nil _)
    | cons d ds =>
      rw [List.flatMap_cons, List.flatMap_cons]
      rcases List.cons_lt_cons_iff.mp h with hlt | ⟨rfl, hlt⟩
      · exact utf8EncodeChar_append_lt hlt _ _
      · exact List.append_left_lt (ih hlt)

theorem write_eq_flatMap (s : String) : write s = s.toList.flatMap String.utf8EncodeChar := by
  rw [← Store.write_ofList, String.ofList_toList]

/-- **Texts come in the order of their bytes.** -/
theorem write_lt_iff {s t : String} : write s < write t ↔ s < t := by
  have hforth : ∀ {s t : String}, s < t → write s < write t := fun h => by
    rw [write_eq_flatMap, write_eq_flatMap]
    exact flatMap_utf8EncodeChar_lt h
  refine ⟨fun h => ?_, hforth⟩
  rcases lt_trichotomy s t with hlt | rfl | hgt
  · exact hlt
  · exact absurd h (List.lt_irrefl _)
  · exact absurd (List.lt_trans h (hforth hgt)) (List.lt_irrefl _)

end FundTrail.Utf8
