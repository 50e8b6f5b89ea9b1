/-
  FundTrail.Store.Error
  ─────────────────────
  **WHAT CAN GO WRONG WITH A STORE.**

  A bucket is a table of bytes, so a row can be missing, its key can be
  malformed and its value can be unreadable; and a handle can lack the right to
  write.  The causes are separate constructors; the wording is in the `message`
  functions alone.
-/
import FundTrail.Bytes
import FundTrail.Text.Utf8
import FundTrail.Text.HexString

namespace FundTrail.Store

/-- The six kinds of records, each with its own bucket. -/
inductive Bucket where
  | exchange
  | account
  | token
  | pattern
  | swap
  | cursor
  deriving DecidableEq, Repr

namespace Bucket

/-- The name of a bucket in messages. -/
def name : Bucket → String
  | .exchange => "Exchange"
  | .account => "Account"
  | .token => "Token"
  | .pattern => "Pattern"
  | .swap => "Swap"
  | .cursor => "Cursor"

/-- The name of a bucket's table. -/
def table : Bucket → String
  | .exchange => "exchange_storage"
  | .account => "account_storage"
  | .token => "token_storage"
  | .pattern => "pattern_storage"
  | .swap => "swap_storage"
  | .cursor => "cursor_storage"

/-- All buckets. -/
def all : List Bucket := [.exchange, .account, .token, .pattern, .swap, .cursor]

end Bucket

/-- Why the bytes of a value cannot be read. -/
inductive ValueFault where
  /-- The bytes end inside a number, a byte string or an address. -/
  | endOfInput
  /-- The bytes end inside a text. -/
  | endOfText
  /-- A text is not UTF-8. -/
  | badText (fault : Utf8.Fault)
  /-- An amount has `length` bytes, more than 32. -/
  | longInteger (length : Nat)
  /-- An address has `length` bytes. -/
  | addressLength (length : Nat)
  /-- A path has no address. -/
  | emptyPath
  /-- A hash is misspelt. -/
  | badHash (fault : HexString.Fault)
  deriving DecidableEq, Repr

/-- The wording of a value that cannot be read. -/
def ValueFault.message : ValueFault → String
  | .endOfInput => "io error: unexpected end of file"
  | .endOfText => "io error: "
  | .badText fault => "string is not valid utf8: " ++ fault.message
  | .longInteger length => s!"integer of {length} bytes does not fit in 256 bits"
  | .addressLength length => s!"expected 20 address bytes, got {length}"
  | .emptyPath => "empty address list"
  | .badHash fault => fault.message

/-- Why the bytes of a key name no record. -/
inductive KeyFault where
  | addressLength (length : Nat)
  | hashLength (length : Nat)
  /-- A pair of token and exchange needs at least the token's 20 bytes. -/
  | shortPair (length : Nat)
  | badName (fault : Utf8.Fault)
  | strangeCursor (key : Bytes)
  deriving DecidableEq, Repr

/-- The wording of a malformed key. -/
def KeyFault.message : KeyFault → String
  | .addressLength length => s!"expected 20 address bytes, got {length}"
  | .hashLength length => s!"expected 32 hash bytes, got {length}"
  | .shortPair length => s!"composite key too short ({length} bytes)"
  | .badName fault => "exchange name is not UTF-8: " ++ fault.message
  | .strangeCursor key => "unexpected cursor key 0x" ++ hexText key

/-- Why an operation on a store failed. -/
inductive StoreError where
  /-- The handle may only read. -/
  | readOnly
  /-- A value cannot be read. -/
  | badValue (fault : ValueFault)
  /-- The bucket has no row with this key. -/
  | notFound (bucket : Bucket) (key : Bytes)
  /-- A key is malformed. -/
  | badKey (bucket : Bucket) (fault : KeyFault)
  /-- An amount has `length` bytes, more than 32. -/
  | longInteger (length : Nat)
  /-- An earlier user of the shared store broke off and left it locked. -/
  | poisoned
  deriving DecidableEq, Repr

/-- The wording of a store's failure. -/
def StoreError.message : StoreError → String
  | .readOnly => "database error: attempt to write a readonly database"
  | .badValue fault => "value encoding error: " ++ fault.message
  | .notFound bucket key => bucket.name ++ " record not found (key 0x" ++ hexText key ++ ")"
  | .badKey bucket fault => "invalid " ++ bucket.name ++ " key: " ++ fault.message
  | .longInteger length => s!"integer of {length} bytes does not fit in 256 bits"
  | .poisoned => "store lock poisoned"

end FundTrail.Store
