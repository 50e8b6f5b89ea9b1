/-
  FundTrail.Store.Table
  ─────────────────────
  **HOW EACH KIND OF RECORD IS KEPT.**

  A `Table` says, for one kind of record, in which bucket it is kept, which key
  names a record, and how keys and values turn into bytes and back.  The key of
  a row is decoded first, and the value is read in its light.
-/
import FundTrail.Store.Codec

namespace FundTrail.Store

/-- The keeping of records of type `ρ` under keys of type `κ`. -/
structure Table (κ ρ : Type) where
  bucket : Bucket
  keyOf : ρ → κ
  encodeKey : κ → Bytes
  decodeKey : Bytes → Except StoreError κ
  encodeValue : ρ → Bytes
  decodeValue : κ → Bytes → Except StoreError ρ

/-! ## §1. Keys. -/

/-- An address as a key. -/
def decodeAddressKey (bucket : Bucket) (bs : Bytes) : Except StoreError Address :=
  match FixedBytes.ofList? bs with
  | some a => .ok a
  | none => .error (.badKey bucket (.addressLength bs.length))

/-- A hash as a key. -/
def decodeHashKey (bucket : Bucket) (bs : Bytes) : Except StoreError Hash :=
  match FixedBytes.ofList? bs with
  | some h => .ok h
  | none => .error (.badKey bucket (.hashLength bs.length))

/-- A pair of token and exchange: the token's bytes, then the name's. -/
def encodePatternKey (key : PatternKey) : Bytes := key.token.toList ++ Utf8.write key.exchange

/-- The pair behind a key of at least 20 bytes. -/
def decodePatternKey (bs : Bytes) : Except StoreError PatternKey :=
  if bs.length < 20 then .error (.badKey .pattern (.shortPair bs.length))
  else
    match Utf8.read (bs.drop 20) with
    | .ok exchange => .ok ⟨FixedBytes.ofPrefix (bs.take 20), exchange⟩
    | .error fault => .error (.badKey .pattern (.badName fault))

/-- The one key of the cursor's bucket. -/
def cursorKey : Bytes := Utf8.write "last_processed"

/-- Accepts the one key of the cursor's bucket. -/
def decodeCursorKey (bs : Bytes) : Except StoreError Unit :=
  if bs = cursorKey then .ok () else .error (.badKey .cursor (.strangeCursor bs))

/-- An exchange's value is its bare name. -/
def decodeExchange (address : Address) (bs : Bytes) : Except StoreError Exchange :=
  match Utf8.read bs with
  | .ok name => .ok ⟨name, address⟩
  | .error fault => .error (.badKey .exchange (.badName fault))

/-! ## §2. The six tables. -/

namespace Table

/-- Exchanges by address. -/
def exchanges : Table Address Exchange where
  bucket := .exchange
  keyOf := Exchange.address
  encodeKey := FixedBytes.toList
  decodeKey := decodeAddressKey .exchange
  encodeValue e := Utf8.write e.name
  decodeValue := decodeExchange

/-- Accounts by address. -/
def accounts : Table Address Account where
  bucket := .account
  keyOf := Account.address
  encodeKey := FixedBytes.toList
  decodeKey := decodeAddressKey .account
  encodeValue := writeAccount
  decodeValue address := (readAccount address).decode

/-- Tokens by address. -/
def tokens : Table Address Token where
  bucket := .token
  keyOf := Token.address
  encodeKey := FixedBytes.toList
  decodeKey := decodeAddressKey .token
  encodeValue := writeToken
  decodeValue address := (readToken address).decode

/-- Patterns by token and exchange. -/
def patterns : Table PatternKey Pattern where
  bucket := .pattern
  keyOf := Pattern.key
  encodeKey := encodePatternKey
  decodeKey := decodePatternKey
  encodeValue := writePattern
  decodeValue key := (readPattern key).decode

/-- Swaps by transaction hash. -/
def swaps : Table Hash Swap where
  bucket := .swap
  keyOf := Swap.txHash
  encodeKey := FixedBytes.toList
  decodeKey := decodeHashKey .swap
  encodeValue := writeSwap
  decodeValue txHash := (readSwap txHash).decode

/-- The cursor under its only key. -/
def cursor : Table Unit Cursor where
  bucket := .cursor
  keyOf _ := ()
  encodeKey _ := cursorKey
  decodeKey := decodeCursorKey
  encodeValue := writeCursor
  decodeValue _ := readCursor.decode

end Table

end FundTrail.Store
