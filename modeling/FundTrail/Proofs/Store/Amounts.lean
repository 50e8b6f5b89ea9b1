/-
  FundTrail.Proofs.Store.Amounts
  ──────────────────────────────
  **THE SHORTEST BYTES OF AN AMOUNT.**

  A byte string without a zero byte in front is as long as its number needs: any shorter
  one stands for a smaller number.  So the number decides on the length first, and within
  one length on the order of the bytes.  There is only one such string for each number;
  the others have zero bytes in front of it.

  Main facts: `ofBigEndian_lt_pow_iff`, `ofBigEndian_lt_iff_shortlex` and
  `amounts_have_minimal_bytes`.
-/
import FundTrail.Proofs.Store.Fields
import Mathlib.Order.Bounds.Basic

namespace FundTrail

/-! ## §1. Numbers without zero bytes in front. -/

/-- No zero byte stands in front. -/
def Bytes.Minimal (bs : Bytes) : Prop := bs.head? ≠ some 0

theorem Bytes.minimal_dropWhile (bs : Bytes) : Bytes.Minimal (bs.dropWhile (· == 0)) := by
  intro h
  have hfirst := List.head?_dropWhile_not (· == 0) bs
  rw [h] at hfirst
  exact nomatch hfirst

/-- The first byte counts at least once. -/
theorem Bytes.Minimal.pow_le_ofBigEndian {b : UInt8} {bs : Bytes}
    (h : Bytes.Minimal (b :: bs)) : 256 ^ bs.length ≤ ofBigEndian (b :: bs) := by
  have hb : 0 < b.toNat := by
    refine Nat.pos_of_ne_zero fun hzero => h ?_
    rw [show b = 0 from UInt8.toNat_inj.mp hzero]
    rfl
  rw [ofBigEndian_cons]
  exact Nat.le_add_right_of_le (Nat.le_mul_of_pos_left _ hb)

section

variable {as bs : Bytes} (has : as.Minimal) (hbs : bs.Minimal)

include hbs

/-- **A number needs as many bytes as it has.** -/
theorem ofBigEndian_lt_pow_iff {n : Nat} : ofBigEndian bs < 256 ^ n ↔ bs.length ≤ n := by
  constructor
  · intro h
    cases bs with
    | nil => exact Nat.zero_le n
    | cons b bs =>
      have hpow : 256 ^ bs.length < 256 ^ n := Nat.lt_of_le_of_lt hbs.pow_le_ofBigEndian h
      exact (Nat.pow_lt_pow_iff_right (by decide)).mp hpow
  · intro h
    exact Nat.lt_of_lt_of_le (ofBigEndian_lt bs) (Nat.pow_le_pow_right (by decide) h)

theorem ofBigEndian_lt_of_length_lt (h : as.length < bs.length) :
    ofBigEndian as < ofBigEndian bs := by
  have hpow : ¬ ofBigEndian bs < 256 ^ as.length :=
    fun hlt => absurd ((ofBigEndian_lt_pow_iff hbs).mp hlt) (Nat.not_le.mpr h)
  exact Nat.lt_of_lt_of_le (ofBigEndian_lt as) (Nat.not_lt.mp hpow)

include has

/-- **Numbers come in the order of their lengths, and then of their bytes.** -/
theorem ofBigEndian_lt_iff_shortlex : ofBigEndian as < ofBigEndian bs
    ↔ as.length < bs.length ∨ as.length = bs.length ∧ as < bs := by
  rcases Nat.lt_trichotomy as.length bs.length with hshort | hsame | hlong
  · exact ⟨fun _ => .inl hshort, fun _ => ofBigEndian_lt_of_length_lt hbs hshort⟩
  · rw [ofBigEndian_lt_iff hsame]
    exact ⟨fun h => .inr ⟨hsame, h⟩, fun h => (h.resolve_left (by omega)).2⟩
  · have hlt := ofBigEndian_lt_of_length_lt has hlong
    exact ⟨fun h => absurd h (Nat.lt_asymm hlt), fun h => by omega⟩

/-- **A number has only one string of bytes without zero bytes in front.** -/
theorem Bytes.Minimal.eq_of_ofBigEndian_eq (h : ofBigEndian as = ofBigEndian bs) : as = bs := by
  have hlt : ¬ ofBigEndian as < ofBigEndian bs := Nat.not_lt.mpr (Nat.le_of_eq h.symm)
  have hgt : ¬ ofBigEndian bs < ofBigEndian as := Nat.not_lt.mpr (Nat.le_of_eq h)
  rw [ofBigEndian_lt_iff_shortlex has hbs, not_or] at hlt
  rw [ofBigEndian_lt_iff_shortlex hbs has, not_or] at hgt
  have hlength : as.length = bs.length := by omega
  rcases Bytes.lt_or_eq_or_gt as bs with hless | heq | hmore
  · exact absurd ⟨hlength, hless⟩ hlt.2
  · exact heq
  · exact absurd ⟨hlength.symm, hmore⟩ hgt.2

end

/-! ## §2. Amounts. -/

namespace Store

theorem decodeAmount?_eq_some_iff {bs : Bytes} {a : Amount} :
    decodeAmount? bs = some a ↔ bs.length ≤ 32 ∧ ofBigEndian bs = a.toNat := by
  unfold decodeAmount?
  split
  next h => rw [Word.ofNat?_eq_some_iff, and_iff_right h, eq_comm]
  next h => exact ⟨nofun, fun hbs => absurd hbs.1 h⟩

/-- At most 32 bytes always are an amount. -/
theorem exists_decodeAmount? {bs : Bytes} (h : bs.length ≤ 32) :
    ∃ a, decodeAmount? bs = some a := by
  have hlt : ofBigEndian bs < 2 ^ 256 :=
    Nat.lt_of_lt_of_le (ofBigEndian_lt bs) (Nat.pow_le_pow_right (by decide) h)
  exact ⟨⟨_, hlt⟩, decodeAmount?_eq_some_iff.mpr ⟨h, rfl⟩⟩

theorem ofBigEndian_encodeAmount (a : Amount) : ofBigEndian (encodeAmount a) = a.toNat :=
  (decodeAmount?_eq_some_iff.mp (decodeAmount?_encodeAmount a)).2

theorem minimal_encodeAmount (a : Amount) : (encodeAmount a).Minimal := Bytes.minimal_dropWhile _

/-- The length is the least number of bytes that the amount fits into. -/
theorem isLeast_length_encodeAmount (a : Amount) :
    IsLeast {n | a.toNat < 256 ^ n} (encodeAmount a).length := by
  have hfits : ∀ n, a.toNat < 256 ^ n ↔ (encodeAmount a).length ≤ n := fun n => by
    rw [← ofBigEndian_encodeAmount a]
    exact ofBigEndian_lt_pow_iff (minimal_encodeAmount a)
  exact ⟨(hfits _).mpr (Nat.le_refl _), fun n hn => (hfits n).mp hn⟩

/-- What any bytes of an amount are without the zero bytes in front. -/
theorem encodeAmount_of_decodeAmount? {bs : Bytes} {a : Amount} (h : decodeAmount? bs = some a) :
    encodeAmount a = bs.dropWhile (· == 0) := by
  refine (minimal_encodeAmount a).eq_of_ofBigEndian_eq (Bytes.minimal_dropWhile bs) ?_
  rw [ofBigEndian_encodeAmount, ofBigEndian_dropWhile, (decodeAmount?_eq_some_iff.mp h).2]

theorem decodeAmount_of_some {bs : Bytes} {a : Amount} (h : decodeAmount? bs = some a) :
    decodeAmount bs = .ok a := by
  unfold decodeAmount
  rw [h]

theorem decodeAmount_of_long {bs : Bytes} (h : 32 < bs.length) :
    decodeAmount bs = .error (.longInteger bs.length) := by
  unfold decodeAmount decodeAmount?
  rw [if_neg (Nat.not_le.mpr h)]

/-- **Each amount has one shortest string of bytes, and is written as that.**  It has no
zero byte in front, as many bytes as the amount needs, and the amount comes back from it;
of the other strings that the amount is read from, it is what is left without the zero
bytes in front.  Only strings of more than 32 bytes are no amount.  Amounts come in the
order of their lengths, and then of their bytes. -/
theorem amounts_have_minimal_bytes :
    (∀ a, (encodeAmount a).head? ≠ some 0
        ∧ IsLeast {n | a.toNat < 256 ^ n} (encodeAmount a).length
        ∧ (encodeAmount a).length ≤ 32
        ∧ (encodeAmount a = [] ↔ a = 0)
        ∧ decodeAmount (encodeAmount a) = .ok a)
      ∧ (∀ bs, (32 < bs.length → decodeAmount bs = .error (.longInteger bs.length))
        ∧ (bs.length ≤ 32 → ∃ a, decodeAmount bs = .ok a
          ∧ encodeAmount a = bs.dropWhile (· == 0)
          ∧ (encodeAmount a).length ≤ bs.length
          ∧ (bs.length = (encodeAmount a).length → bs = encodeAmount a)))
      ∧ ∀ a b, a < b ↔ (encodeAmount a).length < (encodeAmount b).length
        ∨ (encodeAmount a).length = (encodeAmount b).length ∧ encodeAmount a < encodeAmount b := by
  refine ⟨fun a => ⟨minimal_encodeAmount a, isLeast_length_encodeAmount a,
    length_encodeAmount_le a, ?_, decodeAmount_of_some (decodeAmount?_encodeAmount a)⟩,
    fun bs => ⟨decodeAmount_of_long, fun hlength => ?_⟩, fun a b => ?_⟩
  · constructor
    · intro hnil
      have hvalue := ofBigEndian_encodeAmount a
      rw [hnil] at hvalue
      exact Word.ext hvalue.symm
    · rintro rfl
      decide
  · obtain ⟨a, ha⟩ := exists_decodeAmount? hlength
    have hbytes := encodeAmount_of_decodeAmount? ha
    have hsuffix : encodeAmount a <:+ bs := hbytes ▸ List.dropWhile_suffix _
    exact ⟨a, decodeAmount_of_some ha, hbytes, hsuffix.length_le,
      fun h => (hsuffix.eq_of_length h.symm).symm⟩
  · rw [← ofBigEndian_lt_iff_shortlex (minimal_encodeAmount a) (minimal_encodeAmount b),
      ofBigEndian_encodeAmount, ofBigEndian_encodeAmount]
    rfl

/-- Five is read with zero bytes in front, and written without them; 33 bytes are too many,
be they zero.  The byte of 255 comes after those of 256, but it is only one. -/
theorem amounts_have_minimal_bytes_edges :
    (∃ a, decodeAmount [0, 0, 5] = .ok a ∧ encodeAmount a = [5])
      ∧ decodeAmount (List.replicate 33 0) = .error (.longInteger 33)
      ∧ (Word.clamp 255 : Amount) < Word.clamp 256
      ∧ encodeAmount (.clamp 256) < encodeAmount (.clamp 255) := by
  refine ⟨?_, (amounts_have_minimal_bytes.2.1 _).1 (by decide), ?_, by decide⟩
  · obtain ⟨a, ha, hbytes, -⟩ := (amounts_have_minimal_bytes.2.1 [0, 0, 5]).2 (by decide)
    exact ⟨a, ha, hbytes.trans (by decide)⟩
  · exact (amounts_have_minimal_bytes.2.2 _ _).mpr (.inl (by decide))

end Store

end FundTrail
