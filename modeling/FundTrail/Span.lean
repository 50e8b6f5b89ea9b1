/-
  FundTrail.Span
  ──────────────
  **LENGTHS OF TIME.**

  Waiting times are counted in nanoseconds, up to a little under `2 ^ 64`
  seconds.  Sums and multiples report when they are longer than a span;
  multiplication goes by the seconds and by what is left of the last one.  The text
  of a span uses the largest unit in which it is at least one, with as many decimals
  as it needs.

  Main facts: `times?_eq_some_iff` and `times?_eq_none_iff` — the two parts come
  together to the product.
-/
import FundTrail.Word

namespace FundTrail

/-- Nanoseconds in a second. -/
def nanosPerSecond : Nat := 1000000000

/-- A length of time. -/
structure Span where
  nanos : Nat
  nanos_lt : nanos < 2 ^ 64 * nanosPerSecond
  deriving DecidableEq, Repr

namespace Span

/-- The longest span. -/
def longest : Span := ⟨2 ^ 64 * nanosPerSecond - 1, by decide⟩

/-- A span of `n` nanoseconds, or the longest one. -/
def ofNanos (n : Nat) : Span :=
  ⟨min n (2 ^ 64 * nanosPerSecond - 1),
    Nat.lt_of_le_of_lt (Nat.min_le_right _ _) (by decide)⟩

/-- A span of whole seconds. -/
def ofSeconds (n : Nat) : Span := ofNanos (n * nanosPerSecond)

/-- A span of whole milliseconds. -/
def ofMillis (n : Nat) : Span := ofNanos (n * 1000000)

instance : Inhabited Span := ⟨ofNanos 0⟩

instance : LE Span := ⟨fun a b => a.nanos ≤ b.nanos⟩

instance : LT Span := ⟨fun a b => a.nanos < b.nanos⟩

instance (a b : Span) : Decidable (a ≤ b) := inferInstanceAs (Decidable (a.nanos ≤ b.nanos))

instance (a b : Span) : Decidable (a < b) := inferInstanceAs (Decidable (a.nanos < b.nanos))

/-- The shorter of two spans. -/
def shorter (a b : Span) : Span := if a ≤ b then a else b

/-- The whole seconds of a span. -/
def seconds (a : Span) : Nat := a.nanos / nanosPerSecond

/-- The nanoseconds beyond the whole seconds. -/
def subsecond (a : Span) : Nat := a.nanos % nanosPerSecond

@[ext] theorem ext {a b : Span} (h : a.nanos = b.nanos) : a = b := by
  cases a; cases b; cases h; rfl

theorem nanos_ofNanos_of_lt {n : Nat} (h : n < 2 ^ 64 * nanosPerSecond) :
    (ofNanos n).nanos = n :=
  Nat.min_eq_left (Nat.le_sub_one_of_lt h)

theorem nanos_shorter (a b : Span) : (a.shorter b).nanos = min a.nanos b.nanos := by
  unfold shorter
  split
  next h => exact (Nat.min_eq_left h).symm
  next h => exact (Nat.min_eq_right (Nat.le_of_not_le h)).symm

/-- Both spans together, if that is a span. -/
def plus? (a b : Span) : Option Span :=
  if h : a.nanos + b.nanos < 2 ^ 64 * nanosPerSecond then some ⟨a.nanos + b.nanos, h⟩ else none

theorem isSome_plus? {a b : Span} :
    (a.plus? b).isSome ↔ a.nanos + b.nanos < 2 ^ 64 * nanosPerSecond := by
  unfold plus?
  split
  next h => exact ⟨fun _ => h, fun _ => rfl⟩
  next h => exact ⟨nofun, fun hlt => absurd hlt h⟩

/-! ## Multiples of a span. -/

/-- `k` times the nanoseconds beyond the whole seconds, in 64 bits. -/
def subsecondTimes (a : Span) (k : Word 32) : Word 64 := .lowBits (a.subsecond * k.toNat)

/-- They always fit. -/
@[simp] theorem toNat_subsecondTimes (a : Span) (k : Word 32) :
    (a.subsecondTimes k).toNat = a.subsecond * k.toNat :=
  Word.toNat_lowBits_of_lt <|
    calc a.subsecond * k.toNat
        ≤ nanosPerSecond * 2 ^ 32 :=
          Nat.mul_le_mul (Nat.le_of_lt (Nat.mod_lt _ (by decide))) (Nat.le_of_lt k.toNat_lt)
      _ < 2 ^ 64 := by decide

/-- `k` times the span, if that is a span.  Seconds and nanoseconds are multiplied each
for themselves, and the seconds that the nanoseconds come to are carried over; on
either step there may be too many seconds. -/
def times? (a : Span) (k : Word 32) : Option Span :=
  (Word.ofNat? (a.seconds * k.toNat) : Option (Word 64)).bind fun whole =>
    (Word.ofNat? (whole.toNat + (a.subsecondTimes k).toNat / nanosPerSecond) :
        Option (Word 64)).map fun total =>
      ofNanos (total.toNat * nanosPerSecond + (a.subsecondTimes k).toNat % nanosPerSecond)

theorem nanos_mul (a : Span) (k : Nat) :
    a.nanos * k = nanosPerSecond * (a.seconds * k) + a.subsecond * k := by
  rw [← Nat.mul_assoc, ← Nat.add_mul]
  exact congrArg (· * k) (Nat.div_add_mod _ _).symm

/-- With the carry the seconds are those of the product. -/
theorem seconds_mul_add_carry (a : Span) (k : Nat) :
    a.seconds * k + a.subsecond * k / nanosPerSecond = a.nanos * k / nanosPerSecond := by
  rw [nanos_mul, Nat.mul_add_div (by decide)]

/-- And so are the nanoseconds beyond them. -/
theorem subsecond_mul_mod (a : Span) (k : Nat) :
    a.subsecond * k % nanosPerSecond = a.nanos * k % nanosPerSecond := by
  rw [nanos_mul, Nat.mul_add_mod]

theorem times?_eq_some_iff {a c : Span} {k : Word 32} :
    a.times? k = some c ↔ c.nanos = a.nanos * k.toNat := by
  have hfits : a.nanos * k.toNat / nanosPerSecond < 2 ^ 64
      ↔ a.nanos * k.toNat < 2 ^ 64 * nanosPerSecond := Nat.div_lt_iff_lt_mul (by decide)
  unfold times?
  rw [toNat_subsecondTimes, Option.bind_eq_some_iff, subsecond_mul_mod]
  constructor
  · rintro ⟨whole, hwhole, hmap⟩
    obtain ⟨total, htotal, rfl⟩ := Option.map_eq_some_iff.mp hmap
    have hseconds : total.toNat = a.nanos * k.toNat / nanosPerSecond := by
      rw [Word.ofNat?_eq_some_iff.mp htotal, Word.ofNat?_eq_some_iff.mp hwhole,
        seconds_mul_add_carry]
    have hlt := total.toNat_lt
    rw [hseconds] at hlt
    rw [hseconds, Nat.div_add_mod', nanos_ofNanos_of_lt (hfits.mp hlt)]
  · intro hc
    have hlt := c.nanos_lt
    rw [hc] at hlt
    -- neither without the carry nor with it are there too many seconds
    have htotal : a.nanos * k.toNat / nanosPerSecond < 2 ^ 64 := hfits.mpr hlt
    have hwhole : a.seconds * k.toNat < 2 ^ 64 := by
      rw [← seconds_mul_add_carry] at htotal
      exact Nat.lt_of_le_of_lt (Nat.le_add_right _ _) htotal
    refine ⟨⟨_, hwhole⟩, Word.ofNat?_eq_some_iff.mpr rfl, Option.map_eq_some_iff.mpr
      ⟨⟨_, htotal⟩, Word.ofNat?_eq_some_iff.mpr (seconds_mul_add_carry a k.toNat).symm, ?_⟩⟩
    refine Span.ext ?_
    show (ofNanos (_ / _ * _ + _)).nanos = _
    rw [Nat.div_add_mod', nanos_ofNanos_of_lt hlt, hc]

theorem times?_eq_none_iff {a : Span} {k : Word 32} :
    a.times? k = none ↔ 2 ^ 64 * nanosPerSecond ≤ a.nanos * k.toNat := by
  rw [Option.eq_none_iff_forall_ne_some]
  constructor
  · intro h
    exact Nat.not_lt.mp fun hlt => h ⟨_, hlt⟩ (times?_eq_some_iff.mpr rfl)
  · intro h c hc
    have hlt := c.nanos_lt
    rw [times?_eq_some_iff.mp hc] at hlt
    exact absurd hlt (Nat.not_lt.mpr h)

/-! ## The text of a span. -/

/-- The decimals of `fraction / 10 ^ places`, without zeros at the end. -/
def decimals : Nat → Nat → List Char
  | 0, _ => []
  | places + 1, fraction =>
      if fraction = 0 then []
      else
        Char.ofNat (48 + fraction / 10 ^ places)
          :: decimals places (fraction % 10 ^ places)

/-- A whole part and its decimals, with a point only between the two. -/
def decimalText (whole places fraction : Nat) : String :=
  match decimals places fraction with
  | [] => toString whole
  | ds => toString whole ++ "." ++ String.ofList ds

/-- The text of a span: in seconds from one second on, else in milliseconds,
microseconds or nanoseconds. -/
def text (a : Span) : String :=
  if nanosPerSecond ≤ a.nanos then decimalText a.seconds 9 a.subsecond ++ "s"
  else if 1000000 ≤ a.nanos then decimalText (a.nanos / 1000000) 6 (a.nanos % 1000000) ++ "ms"
  else if 1000 ≤ a.nanos then decimalText (a.nanos / 1000) 3 (a.nanos % 1000) ++ "µs"
  else toString a.nanos ++ "ns"

end Span

end FundTrail
