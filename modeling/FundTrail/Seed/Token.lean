/-
  FundTrail.Seed.Token
  ────────────────────
  **THE TOKENS OF A SEED DOCUMENT.**

  A seed document is JSON.  It is read from front to back, and the first thing
  that is wrong decides the answer, so a token does not fail by itself: it says
  what it means where a value of a certain type is wanted (`typed`) and where
  any value will do because it is passed over (`skipped`).  The two differ: a
  number that is too large or that the document cuts off, or half of a surrogate
  pair, is judged differently in the two places.

  Main definition: `tokens`, which stops behind the first token that is wrong
  in both readings.
-/
import FundTrail.Bytes
import FundTrail.Seed.Decimal
import FundTrail.Text.HexString
import FundTrail.Text.Utf8

namespace FundTrail.Seed

open HexString (digitValue?)

/-- What is wrong with a document. -/
inductive DocumentFault where
  /-- It is not JSON. -/
  | malformed
  /-- It ends too early. -/
  | cutShort
  /-- It is JSON, but not a list of exchanges. -/
  | unfit
  deriving DecidableEq, Repr

/-- A token. -/
inductive Token where
  | openList
  | closeList
  | openMap
  | closeMap
  | comma
  | colon
  /-- A text; `typed` is its content. -/
  | text (typed : Except DocumentFault String) (skipped : Option DocumentFault)
  /-- A number, `true`, `false`, `null`, or no value at all. -/
  | other (typed : DocumentFault) (skipped : Option DocumentFault)

/-! ## §1. Texts. -/

/-- The number that the next four bytes spell in hexadecimal. -/
def fourDigits : Bytes → Except DocumentFault Nat
  | a :: b :: c :: d :: _ =>
      match digitValue? a, digitValue? b, digitValue? c, digitValue? d with
      | some a, some b, some c, some d => .ok (((a * 16 + b) * 16 + c) * 16 + d)
      | _, _, _, _ => .error .malformed
  | _ => .error .cutShort

/-- The UTF-8 bytes of a code point. -/
def codePointBytes (n : Nat) : Bytes := Utf8.write (String.singleton (Char.ofNat n))

/-- The character behind `\u`, as bytes, and the number of bytes it takes.  Code
points beyond the basic plane come as a pair of surrogates. -/
def numberedCharacter (bs : Bytes) : Except DocumentFault (Bytes × Nat) := do
  let high ← fourDigits bs
  if 0xdc00 ≤ high ∧ high ≤ 0xdfff then .error .malformed
  else if high < 0xd800 ∨ 0xdbff < high then pure (codePointBytes high, 4)
  else
    match bs.drop 4 with
    | [] => .error .cutShort
    | 92 :: [] => .error .cutShort
    | 92 :: 117 :: rest =>
        let low ← fourDigits rest
        if low < 0xdc00 ∨ 0xdfff < low then .error .malformed
        else pure (codePointBytes ((high - 0xd800) * 0x400 + (low - 0xdc00) + 0x10000), 10)
    | _ => .error .malformed

/-- The byte that a one-letter escape stands for. -/
def shortEscape? (b : UInt8) : Option UInt8 :=
  if b = 34 ∨ b = 92 ∨ b = 47 then some b
  else if b = 98 then some 8
  else if b = 102 then some 12
  else if b = 110 then some 10
  else if b = 114 then some 13
  else if b = 116 then some 9
  else none

/-- The character behind a backslash, as bytes, and the number of bytes it
takes. -/
def escaped : Bytes → Except DocumentFault (Bytes × Nat)
  | [] => .error .cutShort
  | b :: bs =>
      if b = 117 then (numberedCharacter bs).map fun (out, used) => (out, used + 1)
      else
        match shortEscape? b with
        | some c => .ok ([c], 1)
        | none => .error .malformed

/-- The content of a text, up to the closing quote; `skip` bytes belong to an
escape that is already read. -/
def textContent (skip : Nat) : Bytes → Except DocumentFault Bytes
  | [] => .error .cutShort
  | b :: bs =>
    match skip with
    | skip + 1 => textContent skip bs
    | 0 =>
      if b = 34 then .ok []
      else if b = 92 then
        match escaped bs with
        | .ok (out, used) => (textContent used bs).map (out ++ ·)
        | .error fault => .error fault
      else if b < 32 then .error .malformed
      else (textContent 0 bs).map (b :: ·)

/-- How many bytes an escape takes when its meaning does not matter. -/
def escapeLength : Bytes → Except DocumentFault Nat
  | [] => .error .cutShort
  | b :: bs =>
      if b = 117 then (fourDigits bs).map fun _ => 5
      else if (shortEscape? b).isSome then .ok 1
      else .error .malformed

/-- How many bytes a text takes, with its closing quote, when its content does
not matter. -/
def textLength (skip : Nat) : Bytes → Except DocumentFault Nat
  | [] => .error .cutShort
  | b :: bs =>
    match skip with
    | skip + 1 => (textLength skip bs).map (· + 1)
    | 0 =>
      if b = 34 then .ok 1
      else if b = 92 then
        match escapeLength bs with
        | .ok used => (textLength used bs).map (· + 1)
        | .error fault => .error fault
      else if b < 32 then .error .malformed
      else (textLength 0 bs).map (· + 1)

/-- The text behind an opening quote, and the number of bytes it takes. -/
def textToken (bs : Bytes) : Token × Nat :=
  let content := (textContent 0 bs).map Utf8.readLossy
  match textLength 0 bs with
  | .ok used => (.text content none, used)
  | .error fault => (.text content (some fault), 0)

/-! ## §2. Numbers and words. -/

/-- Whether a byte is a decimal digit. -/
def isDigit (b : UInt8) : Bool := 48 ≤ b ∧ b ≤ 57

/-- At least one digit, and all that follow it; the bytes behind them. -/
def someDigits : Bytes → Except DocumentFault Bytes
  | [] => .error .cutShort
  | b :: bs => if isDigit b then .ok (bs.dropWhile isDigit) else .error .malformed

/-- The exponent of a number, if it has one; the bytes behind it. -/
def exponent : Bytes → Except DocumentFault Bytes
  | [] => .ok []
  | b :: bs =>
      if b = 101 ∨ b = 69 then
        match bs with
        | 43 :: rest => someDigits rest
        | 45 :: rest => someDigits rest
        | rest => someDigits rest
      else .ok (b :: bs)

/-- The decimals of a number, if it has any, and its exponent; the bytes behind
them. -/
def fraction : Bytes → Except DocumentFault Bytes
  | 46 :: bs => someDigits bs >>= exponent
  | bs => exponent bs

/-- A number without its sign; the bytes behind it.  A zero in front has to be
the whole integer part. -/
def number : Bytes → Except DocumentFault Bytes
  | [] => .error .cutShort
  | 48 :: bs =>
      match bs with
      | b :: _ => if isDigit b then .error .malformed else fraction bs
      | [] => fraction bs
  | bs => someDigits bs >>= fraction

/-- The values of the digits at the front. -/
def digitsOf (bs : Bytes) : List Nat := (bs.takeWhile isDigit).map fun b => b.toNat - 48

/-- The number that digits at the front spell. -/
def valueOf (bs : Bytes) : Nat := (digitsOf bs).foldl (fun n d => 10 * n + d) 0

/-- The exponent of a number, if the text starts with one. -/
def exponentOf : Bytes → Int
  | [] => 0
  | b :: bs =>
      if b = 101 ∨ b = 69 then
        match bs with
        | 43 :: rest => valueOf rest
        | 45 :: rest => -(valueOf rest : Int)
        | rest => valueOf rest
      else 0

/-- The number that a numeral stands for. -/
def decimalOf (bs : Bytes) : Decimal :=
  match bs.dropWhile isDigit with
  | 46 :: rest => ⟨digitsOf bs, digitsOf rest, exponentOf (rest.dropWhile isDigit)⟩
  | rest => ⟨digitsOf bs, [], exponentOf rest⟩

/-- The token of a number, and the number of bytes behind its first that it
takes.  Only where a value is wanted is a number too large, or cut short by the
end of the document. -/
def numberToken (b : UInt8) (bs : Bytes) : Token × Nat :=
  let unsigned := if b = 45 then bs else b :: bs
  match number unsigned with
  | .ok rest =>
      let numeral := unsigned.take (unsigned.length - rest.length)
      let fault := if (decimalOf numeral).isTooLarge then DocumentFault.malformed else .unfit
      (.other fault none, bs.length - rest.length)
  | .error .cutShort => (.other .cutShort (some .malformed), 0)
  | .error fault => (.other fault (some fault), 0)

/-- Compare with the remaining letters of a word. -/
def word : Bytes → Bytes → Except DocumentFault Unit
  | [], _ => .ok ()
  | _ :: _, [] => .error .cutShort
  | w :: ws, b :: bs => if w = b then word ws bs else .error .malformed

/-- The token of a word whose remaining letters are `letters`. -/
def wordToken (letters bs : Bytes) : Token × Nat :=
  match word letters bs with
  | .ok () => (.other .unfit none, letters.length)
  | .error fault => (.other fault (some fault), 0)

/-! ## §3. The whole document. -/

/-- White space between tokens. -/
def isSpace (b : UInt8) : Bool := b = 32 ∨ b = 9 ∨ b = 10 ∨ b = 13

/-- The token that starts with `b`, and the number of bytes behind `b` that it
takes. -/
def tokenAt (b : UInt8) (bs : Bytes) : Token × Nat :=
  if b = 91 then (.openList, 0)
  else if b = 93 then (.closeList, 0)
  else if b = 123 then (.openMap, 0)
  else if b = 125 then (.closeMap, 0)
  else if b = 44 then (.comma, 0)
  else if b = 58 then (.colon, 0)
  else if b = 34 then textToken bs
  else if b = 45 ∨ isDigit b then numberToken b bs
  else if b = 110 then wordToken [117, 108, 108] bs
  else if b = 116 then wordToken [114, 117, 101] bs
  else if b = 102 then wordToken [97, 108, 115, 101] bs
  else (.other .malformed (some .malformed), 0)

/-- Whether nothing behind the token can matter. -/
def Token.isLast : Token → Bool
  | .text _ (some _) => true
  | .other _ (some _) => true
  | _ => false

/-- The tokens of a document. -/
def tokens : Bytes → List Token :=
  go 0
where
  /-- `skip` bytes belong to a token that is already read. -/
  go (skip : Nat) : Bytes → List Token
    | [] => []
    | b :: bs =>
      match skip with
      | skip + 1 => go skip bs
      | 0 =>
        if isSpace b then go 0 bs
        else
          let (token, used) := tokenAt b bs
          if token.isLast then [token] else token :: go used bs

end FundTrail.Seed
