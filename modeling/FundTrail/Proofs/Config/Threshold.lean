/-
  FundTrail.Proofs.Config.Threshold
  ─────────────────────────────────
  **THE LEAST VALUE OF A TRANSFER, AS IT IS CONFIGURED.**

  A text spells a number if it is a run of decimal digits, at least one, with nothing but
  blanks around it.  A number that is an amount is taken for the threshold exactly as it
  is spelt, and whatever spells no amount leaves the threshold at one ether: signs, other
  characters, blanks between the digits, and numbers that are too large.

  There is one exception.  No digits at all read as zero, so a variable that is set to
  nothing, or to blanks, takes the threshold away.

  Main facts: `readAmount?_eq_some_iff` and `threshold_as_spelt`.
-/
import FundTrail.Config.Booking
import FundTrail.Proofs.Text.Trimming
import Mathlib.Data.Nat.Digits.Defs
import Mathlib.Tactic.Ring

namespace FundTrail

/-! ## §1. Numbers, as they are spelt. -/

namespace Text

/-- The characters are digits, and stand for a number in the decimal system. -/
structure Denotes (cs : List Char) (n : Nat) : Prop where
  digits : ∀ c ∈ cs, c.isDigit = true
  value : Nat.ofDigits 10 (cs.map fun c => c.toNat - 48).reverse = n

/-- A text spells a number: at least one digit, with nothing but blanks around. -/
def Spells (s : String) (n : Nat) : Prop :=
  ∃ front digits back, s.toList = front ++ digits ++ back
    ∧ (∀ c ∈ front, isBlank c = true) ∧ (∀ c ∈ back, isBlank c = true)
    ∧ digits ≠ [] ∧ Denotes digits n

theorem digitValue?_eq_some_iff {c : Char} {d : Nat} :
    digitValue? c = some d ↔ c.isDigit = true ∧ c.toNat - 48 = d := by
  have hrange : ('0' ≤ c ∧ c ≤ '9') ↔ c.isDigit = true := by
    unfold Char.isDigit
    rw [Bool.and_eq_true, decide_eq_true_iff, decide_eq_true_iff]
    rfl
  unfold digitValue?
  split
  next h => rw [Option.some_inj, and_iff_right (hrange.mp h)]
  next h => exact ⟨nofun, fun hd => absurd (hrange.mpr hd.1) h⟩

/-- Digits continue the number that the digits before them have begun. -/
theorem digitsValueFrom?_eq_some_iff {acc : Nat} {cs : List Char} {n : Nat} :
    digitsValueFrom? acc cs = some n ↔ (∀ c ∈ cs, c.isDigit = true)
      ∧ acc * 10 ^ cs.length + Nat.ofDigits 10 (cs.map fun c => c.toNat - 48).reverse = n := by
  induction cs generalizing acc with
  | nil => simp [digitsValueFrom?]
  | cons c cs ih =>
    have hvalue : ∀ d, (10 * acc + d) * 10 ^ cs.length
          + Nat.ofDigits 10 (cs.map fun c => c.toNat - 48).reverse
        = acc * 10 ^ (cs.length + 1)
          + (Nat.ofDigits 10 (cs.map fun c => c.toNat - 48).reverse + 10 ^ cs.length * d) := by
      intro d
      ring
    unfold digitsValueFrom?
    rw [Option.bind_eq_some_iff, List.forall_mem_cons, List.map_cons, Nat.ofDigits_reverse_cons,
      List.length_map, List.length_cons, ← hvalue]
    constructor
    · rintro ⟨d, hd, hrest⟩
      obtain ⟨hdigit, rfl⟩ := digitValue?_eq_some_iff.mp hd
      obtain ⟨hdigits, hn⟩ := ih.mp hrest
      exact ⟨⟨hdigit, hdigits⟩, hn⟩
    · rintro ⟨⟨hdigit, hdigits⟩, hn⟩
      exact ⟨_, digitValue?_eq_some_iff.mpr ⟨hdigit, rfl⟩, ih.mpr ⟨hdigits, hn⟩⟩

theorem digitsValue?_eq_some_iff {cs : List Char} {n : Nat} :
    digitsValue? cs = some n ↔ Denotes cs n := by
  unfold digitsValue?
  rw [digitsValueFrom?_eq_some_iff, Nat.zero_mul, Nat.zero_add]
  exact ⟨fun h => ⟨h.1, h.2⟩, fun h => ⟨h.digits, h.value⟩⟩

theorem isBlank_of_isDigit {c : Char} (h : c.isDigit = true) : isBlank c = false := by
  obtain ⟨d, hd⟩ : ∃ d, digitValue? c = some d := ⟨_, digitValue?_eq_some_iff.mpr ⟨h, rfl⟩⟩
  have hrange : 48 ≤ c.toNat ∧ c.toNat ≤ 57 := by
    unfold digitValue? at hd
    split at hd
    next h => exact h
    next => exact nomatch hd
  unfold isBlank
  simp only [Bool.or_eq_false_iff, Bool.and_eq_false_iff, decide_eq_false_iff_not, beq_eq_false_iff_ne]
  omega

/-- Digits have no blanks at their ends, so they are what is left of the text. -/
theorem spells_iff_denotes_trimChars {s : String} {n : Nat} :
    Spells s n ↔ trimChars s.toList ≠ [] ∧ Denotes (trimChars s.toList) n := by
  constructor
  · rintro ⟨front, digits, back, hs, hfront, hback, hne, hdigits⟩
    have htrimmed : Trimmed digits :=
      ⟨fun c hc => isBlank_of_isDigit (hdigits.digits c (List.mem_of_mem_head? hc)),
        fun c hc => isBlank_of_isDigit (hdigits.digits c (List.mem_of_mem_getLast? hc))⟩
    rw [hs, trimChars_between hfront htrimmed hback]
    exact ⟨hne, hdigits⟩
  · rintro ⟨hne, hdigits⟩
    obtain ⟨front, back, hfront, hback, hs⟩ := exists_blanks_around s.toList
    exact ⟨front, _, back, hs, hfront, hback, hne, hdigits⟩

/-- **What is read as an amount** is what spells it, and a text without any digits is read
as zero. -/
theorem readAmount?_eq_some_iff {s : String} {a : Amount} :
    readAmount? s = some a ↔ Spells s a.toNat ∨ IsBlankText s ∧ a = 0 := by
  have hread : readAmount? s = some a ↔ Denotes (trimChars s.toList) a.toNat := by
    unfold readAmount?
    rw [Option.bind_eq_some_iff]
    constructor
    · rintro ⟨n, hn, ha⟩
      rw [Word.ofNat?_eq_some_iff.mp ha]
      exact digitsValue?_eq_some_iff.mp hn
    · intro h
      exact ⟨_, digitsValue?_eq_some_iff.mpr h, Word.ofNat?_eq_some_iff.mpr rfl⟩
  rw [hread, spells_iff_denotes_trimChars]
  by_cases hnil : trimChars s.toList = []
  · -- the empty run of digits stands for zero
    have hblank : IsBlankText s := trimChars_eq_nil_iff.mp hnil
    rw [hnil]
    constructor
    · intro h
      exact .inr ⟨hblank, Word.ext h.value.symm⟩
    · rintro (⟨hne, -⟩ | ⟨-, rfl⟩)
      · exact absurd rfl hne
      · exact ⟨nofun, rfl⟩
  · have hblank : ¬ IsBlankText s := mt trimChars_eq_nil_iff.mpr hnil
    rw [and_iff_right hnil, or_iff_left fun h => hblank h.1]

end Text

/-! ## §2. The threshold. -/

namespace BookingConfig

variable {s : String}

theorem minTransferOf_of_spells {n : Nat} (h : Text.Spells s n) (hn : n < 2 ^ 256) :
    (minTransferOf (some s)).toNat = n := by
  have hread : Text.readAmount? s = some ⟨n, hn⟩ := Text.readAmount?_eq_some_iff.mpr (.inl h)
  show ((Text.readAmount? s).getD oneEther).toNat = n
  rw [hread]
  rfl

/-- No digits at all are taken for the threshold zero. -/
theorem minTransferOf_of_blank (h : Text.IsBlankText s) : minTransferOf (some s) = 0 := by
  have hread : Text.readAmount? s = some 0 := Text.readAmount?_eq_some_iff.mpr (.inr ⟨h, rfl⟩)
  show (Text.readAmount? s).getD oneEther = 0
  rw [hread]
  rfl

theorem minTransferOf_of_nonsense (hblank : ¬ Text.IsBlankText s)
    (h : ∀ n, Text.Spells s n → 2 ^ 256 ≤ n) : minTransferOf (some s) = oneEther := by
  have hread : Text.readAmount? s = none := by
    rw [Option.eq_none_iff_forall_ne_some]
    intro a ha
    rcases Text.readAmount?_eq_some_iff.mp ha with hs | ⟨hs, -⟩
    · exact absurd a.toNat_lt (Nat.not_lt.mpr (h _ hs))
    · exact hblank hs
  show (Text.readAmount? s).getD oneEther = oneEther
  rw [hread]
  rfl

/-- A threshold that is set is as it is spelt, or it is zero and spelt with blanks, or it
is the one that holds without being set. -/
theorem minTransferOf_cases (s : String) :
    Text.Spells s (minTransferOf (some s)).toNat
      ∨ (Text.IsBlankText s ∧ minTransferOf (some s) = 0) ∨ minTransferOf (some s) = oneEther := by
  by_cases hblank : Text.IsBlankText s
  · exact .inr (.inl ⟨hblank, minTransferOf_of_blank hblank⟩)
  by_cases hspelt : ∃ n, Text.Spells s n ∧ n < 2 ^ 256
  · obtain ⟨n, hs, hn⟩ := hspelt
    refine .inl ?_
    rw [minTransferOf_of_spells hs hn]
    exact hs
  · refine .inr (.inr (minTransferOf_of_nonsense hblank fun n hs => ?_))
    exact Nat.not_lt.mp fun hn => hspelt ⟨n, hs, hn⟩

end BookingConfig

/-- **The threshold is exactly what is spelt, and one ether where nothing is.**  Where the
variable is not set, or is set to what spells no amount, one ether is the least value of a
transfer.  Only a variable of blanks is taken for zero, although it spells nothing: so
there is no threshold where the variable spells zero, or where it is blank. -/
theorem threshold_as_spelt (env : Environment) :
    let threshold := (BookingConfig.ofEnvironment env).minTransfer
    (env.get? "MIN_TRANSFER_WEI" = none → threshold = oneEther)
    ∧ (∀ text, env.get? "MIN_TRANSFER_WEI" = some text →
        (∀ n, Text.Spells text n → n < 2 ^ 256 → threshold.toNat = n)
        ∧ (Text.IsBlankText text → threshold = 0)
        ∧ (¬ Text.IsBlankText text → (∀ n, Text.Spells text n → 2 ^ 256 ≤ n) →
            threshold = oneEther))
    ∧ (threshold = 0 ↔ ∃ text, env.get? "MIN_TRANSFER_WEI" = some text
        ∧ (Text.Spells text 0 ∨ Text.IsBlankText text)) := by
  intro threshold
  have hthreshold : ∀ {value}, env.get? "MIN_TRANSFER_WEI" = value →
      threshold = BookingConfig.minTransferOf value := by
    rintro _ rfl
    rfl
  have hether : oneEther ≠ 0 := by decide
  refine ⟨hthreshold, fun text htext => ?_, fun hzero => ?_, ?_⟩
  · rw [hthreshold htext]
    exact ⟨fun n => BookingConfig.minTransferOf_of_spells, BookingConfig.minTransferOf_of_blank,
      BookingConfig.minTransferOf_of_nonsense⟩
  · cases htext : env.get? "MIN_TRANSFER_WEI" with
    | none => exact absurd ((hthreshold htext).symm.trans hzero) hether
    | some text =>
      have hset : BookingConfig.minTransferOf (some text) = 0 := (hthreshold htext).symm.trans hzero
      refine ⟨text, rfl, ?_⟩
      rcases BookingConfig.minTransferOf_cases text with hs | ⟨hs, -⟩ | hs
      · rw [hset] at hs
        exact .inl hs
      · exact .inr hs
      · exact absurd (hs.symm.trans hset) hether
  · rintro ⟨text, htext, hs | hs⟩
    · rw [hthreshold htext]
      exact Word.ext (BookingConfig.minTransferOf_of_spells hs (by decide))
    · rw [hthreshold htext]
      exact BookingConfig.minTransferOf_of_blank hs

/-- An environment that sets the threshold. -/
def thresholdSet (text : String) : Environment := ⟨[("MIN_TRANSFER_WEI", text)]⟩

/-- Zeros in front and blanks around do not matter; a sign does, and so does a blank
between the digits.  But no digits at all are zero. -/
theorem threshold_as_spelt_edges :
    let threshold := fun text => (BookingConfig.ofEnvironment (thresholdSet text)).minTransfer
    (threshold " 0042\n").toNat = 42
      ∧ threshold "+42" = oneEther
      ∧ threshold "4 2" = oneEther
      ∧ threshold "" = 0
      ∧ threshold " " = 0 := by
  intro threshold
  have hset : ∀ text, (thresholdSet text).get? "MIN_TRANSFER_WEI" = some text := fun _ => rfl
  have hspelt : Text.Spells " 0042\n" 42 :=
    ⟨[' '], ['0', '0', '4', '2'], ['\n'], by decide, List.all_eq_true.mp rfl,
      List.all_eq_true.mp rfl, by decide, List.all_eq_true.mp rfl, by decide⟩
  -- the first character that is no digit shows that nothing is spelt
  have hnonsense : ∀ text, Text.digitsValue? (Text.trimChars text.toList) = none →
      threshold text = oneEther := by
    intro text hnone
    refine ((threshold_as_spelt (thresholdSet text)).2.1 text (hset text)).2.2 ?_ ?_
    · intro hblank
      rw [Text.trimChars_eq_nil_iff.mpr hblank] at hnone
      exact nomatch hnone
    · intro n hs
      have hread := Text.digitsValue?_eq_some_iff.mpr (Text.spells_iff_denotes_trimChars.mp hs).2
      exact nomatch hnone.symm.trans hread
  refine ⟨?_, hnonsense _ (by decide), hnonsense _ (by decide), ?_, ?_⟩
  · exact ((threshold_as_spelt (thresholdSet _)).2.1 _ (hset _)).1 42 hspelt (by decide)
  · exact (threshold_as_spelt (thresholdSet "")).2.2.mpr ⟨"", hset "", .inr nofun⟩
  · exact (threshold_as_spelt (thresholdSet " ")).2.2.mpr ⟨" ", hset " ", .inr fun c hc => by
      obtain rfl := List.mem_singleton.mp hc
      rfl⟩

end FundTrail
