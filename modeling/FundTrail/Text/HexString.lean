/-
  FundTrail.Text.HexString
  ────────────────────────
  **BYTES WRITTEN IN HEXADECIMAL.**

  The hash of a stored cursor and the addresses of a seed file are texts that
  spell a fixed number of bytes, with or without `0x` in front.  The length of
  the text is checked first, in bytes of its encoding; then the digits are
  paired up from the front.  Blanks between digits are passed over, and what
  they leave missing at the end reads as zero.

  A node writes numbers and byte strings of any length in the same digits:
  `readNumber?` and `readBytes?` read those.
-/
import FundTrail.Bytes
import FundTrail.Text.Utf8

namespace FundTrail.HexString

/-- Why a text spells no byte string of the wanted length. -/
inductive Fault where
  /-- The text, less its `0x`, has `length` bytes. -/
  | badLength (length wanted : Nat)
  /-- The byte at `index` is no digit. -/
  | badDigit (byte : UInt8) (index : Nat)
  deriving DecidableEq, Repr

/-- The wording of a fault; a byte that is no digit is shown as the character
with its number. -/
def Fault.message : Fault → String
  | .badLength length wanted =>
      s!"invalid length {length}, expected a (both 0x-prefixed or not) hex string or byte array containing {wanted} bytes"
  | .badDigit byte index =>
      "invalid hex character: " ++ String.singleton (Char.ofNat byte.toNat)
        ++ s!", at {index}"

/-- The value of a hexadecimal digit of either case. -/
def digitValue? (b : UInt8) : Option Nat :=
  if 48 ≤ b ∧ b ≤ 57 then some (b.toNat - 48)
  else if 65 ≤ b ∧ b ≤ 70 then some (b.toNat - 55)
  else if 97 ≤ b ∧ b ≤ 102 then some (b.toNat - 87)
  else none

/-- Space, tab, carriage return and line feed may stand between digits. -/
def isGap (b : UInt8) : Bool := b = 32 ∨ b = 9 ∨ b = 13 ∨ b = 10

/-- The values of the digits from byte `index` on. -/
def digits : Nat → Bytes → Except Fault (List Nat)
  | _, [] => .ok []
  | index, b :: bs =>
      match digitValue? b with
      | some d => (digits (index + 1) bs).map (d :: ·)
      | none => if isGap b then digits (index + 1) bs else .error (.badDigit b index)

/-- The bytes that pairs of digits spell; a digit without a partner is dropped. -/
def pairUp : List Nat → Bytes
  | high :: low :: ds => UInt8.ofNat (16 * high + low) :: pairUp ds
  | _ => []

/-- The text's bytes without one leading `0x`, and how many were removed. -/
def dropMark : Bytes → Bytes × Nat
  | 48 :: 120 :: bs => (bs, 2)
  | bs => (bs, 0)

/-- The `n` bytes that a text spells. -/
def read (n : Nat) (s : String) : Except Fault (FixedBytes n) :=
  let (bs, dropped) := dropMark (Utf8.write s)
  if bs.length = 2 * n then
    (digits dropped bs).map fun ds => FixedBytes.ofPrefix (pairUp ds)
  else .error (.badLength bs.length n)

/-- The number of at most `w` bytes that a text spells; it has a digit at least,
and need not have an even number of them. -/
def readNumber? (w : Nat) (s : String) : Option Nat :=
  let (bs, dropped) := dropMark (Utf8.write s)
  if bs.isEmpty ∨ 2 * w < bs.length then none
  else
    match digits dropped bs with
    | .error _ => none
    | .ok ds => some (ofBigEndian (pairUp (if bs.length % 2 = 1 then 0 :: ds else ds)))

/-- The bytes that a text spells, however many; there are no gaps. -/
def readBytes? (s : String) : Option Bytes :=
  let (bs, _) := dropMark (Utf8.write s)
  if bs.length % 2 = 1 then none
  else (bs.mapM digitValue?).map pairUp

end FundTrail.HexString
