/-
  FundTrail.Text.Numeral
  ──────────────────────
  **DECIMAL NUMERALS IN SETTINGS.**

  A setting is read as a decimal numeral after its surrounding blanks are
  removed.  `digitsValue?` reads a run of digits; `readUnsigned?` also admits a
  plus sign and wants at least one digit; `readAmount?` is stricter about the
  sign and more lenient about the digits: none of them reads as zero.
-/
import FundTrail.Word
import FundTrail.Text.Blank

namespace FundTrail.Text

/-- The value of a decimal digit. -/
def digitValue? (c : Char) : Option Nat :=
  if '0' ≤ c ∧ c ≤ '9' then some (c.toNat - 48) else none

/-- The value of a run of decimal digits that continues the digits of `acc`;
none if some character is no digit. -/
def digitsValueFrom? : Nat → List Char → Option Nat
  | acc, [] => some acc
  | acc, c :: cs => (digitValue? c).bind fun d => digitsValueFrom? (10 * acc + d) cs

/-- The value of a run of decimal digits, zero for the empty run. -/
def digitsValue? (cs : List Char) : Option Nat := digitsValueFrom? 0 cs

/-- A decimal numeral with at least one digit and, if it likes, a plus sign. -/
def unsigned? : List Char → Option Nat
  | '+' :: cs => if cs.isEmpty then none else digitsValue? cs
  | cs => if cs.isEmpty then none else digitsValue? cs

/-- A setting that counts something: blanks around it do not matter, and it has
to fit in `bits` bits. -/
def readUnsigned? (bits : Nat) (s : String) : Option (Word bits) :=
  (unsigned? (trimChars s.toList)).bind Word.ofNat?

/-- A setting that is an amount: digits only, and no digits at all are zero. -/
def readAmount? (s : String) : Option Amount :=
  (digitsValue? (trimChars s.toList)).bind Word.ofNat?

end FundTrail.Text
