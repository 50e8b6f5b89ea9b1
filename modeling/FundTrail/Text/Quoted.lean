/-
  FundTrail.Text.Quoted
  ─────────────────────
  **A NAME BETWEEN QUOTES.**

  A message that complains about a name quotes it, so that blanks, quotes and
  characters that do not show can be told apart: `quote` puts the text between
  double quotes and escapes whatever would not survive there.
-/
import FundTrail.Text.Hidden

namespace FundTrail.Text

/-- The lower-case hexadecimal digits of a number, without leading zeros. -/
def hexNumeral (n : Nat) : List Char := Nat.toDigits 16 n

/-- One character as it stands between the quotes. -/
def quotedChar (c : Char) : List Char :=
  if c = '\x00' then ['\\', '0']
  else if c = '\t' then ['\\', 't']
  else if c = '\r' then ['\\', 'r']
  else if c = '\n' then ['\\', 'n']
  else if c = '"' then ['\\', '"']
  else if c = '\\' then ['\\', '\\']
  else if isHidden c then ['\\', 'u', '\x7b'] ++ hexNumeral c.toNat ++ ['\x7d']
  else [c]

/-- The text between double quotes. -/
def quote (s : String) : String :=
  String.ofList ('"' :: s.toList.flatMap quotedChar ++ ['"'])

end FundTrail.Text
