/-
  FundTrail.Abi
  ─────────────
  **READING WORDS FROM CALL DATA AND RETURN DATA.**

  Arguments and results of contract calls are words of 32 bytes.  A list or a
  text stands elsewhere: its word says at which offset, counted from the start of
  the arguments, and there its length comes first.  Reading is lenient: words
  may overlap, bytes may follow, and of the word of an address only the last
  twenty bytes count.  A word that is used as an offset or a length has to fit
  in 32 bits.
-/
import FundTrail.Bytes

namespace FundTrail.Abi

/-- The word at an offset. -/
def wordAt? (data : Bytes) (offset : Nat) : Option Bytes :=
  if offset + 32 ≤ data.length then some ((data.drop offset).take 32) else none

/-- The number in the word at an offset. -/
def numberAt? (data : Bytes) (offset : Nat) : Option Nat :=
  (wordAt? data offset).map ofBigEndian

/-- The amount in the word at an offset. -/
def amountAt? (data : Bytes) (offset : Nat) : Option Amount :=
  (numberAt? data offset).map Word.lowBits

/-- The address in the word at an offset. -/
def addressAt? (data : Bytes) (offset : Nat) : Option Address :=
  (wordAt? data offset).map fun word => FixedBytes.ofPrefix (word.drop 12)

/-- An offset or a length. -/
def sizeAt? (data : Bytes) (offset : Nat) : Option Nat :=
  (numberAt? data offset).bind fun n => if n < 2 ^ 32 then some n else none

/-- The list of addresses whose place is given in the word at an offset. -/
def addressesAt? (data : Bytes) (offset : Nat) : Option (List Address) := do
  let place ← sizeAt? data offset
  let count ← sizeAt? data place
  if place + 32 + 32 * count ≤ data.length then
    (List.range count).mapM fun i => addressAt? data (place + 32 + 32 * i)
  else none

/-- The byte string whose place is given in the word at an offset. -/
def bytesAt? (data : Bytes) (offset : Nat) : Option Bytes := do
  let place ← sizeAt? data offset
  let length ← sizeAt? data place
  if place + 32 + length ≤ data.length then
    some ((data.drop (place + 32)).take length)
  else none

end FundTrail.Abi
