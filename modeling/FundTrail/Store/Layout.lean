/-
  FundTrail.Store.Layout
  ──────────────────────
  **SIX BUCKETS AS ONE FAMILY OF TABLES.**

  Each bucket has its type of keys and its type of records.  Seen as a family
  over the buckets they allow to speak of "the record under a key in a bucket"
  without saying which bucket.
-/
import FundTrail.Store.Table

namespace FundTrail.Store.Bucket

/-- What names a record in a bucket. -/
abbrev Key : Bucket → Type
  | .exchange => Address
  | .account => Address
  | .token => Address
  | .pattern => PatternKey
  | .swap => Hash
  | .cursor => Unit

instance (bucket : Bucket) : DecidableEq bucket.Key :=
  match bucket with
  | .exchange => inferInstanceAs (DecidableEq Address)
  | .account => inferInstanceAs (DecidableEq Address)
  | .token => inferInstanceAs (DecidableEq Address)
  | .pattern => inferInstanceAs (DecidableEq PatternKey)
  | .swap => inferInstanceAs (DecidableEq Hash)
  | .cursor => inferInstanceAs (DecidableEq Unit)

/-- The records in a bucket. -/
abbrev Record : Bucket → Type
  | .exchange => Exchange
  | .account => Account
  | .token => Token
  | .pattern => Pattern
  | .swap => Swap
  | .cursor => Cursor

/-- How a bucket keeps its records. -/
def layout : (bucket : Bucket) → Table bucket.Key bucket.Record
  | .exchange => .exchanges
  | .account => .accounts
  | .token => .tokens
  | .pattern => .patterns
  | .swap => .swaps
  | .cursor => .cursor

@[simp] theorem bucket_layout (bucket : Bucket) : bucket.layout.bucket = bucket := by
  cases bucket <;> rfl

/-- The record behind a row of a bucket; the key is read first. -/
def readRow (bucket : Bucket) (key value : Bytes) : Except StoreError bucket.Record := do
  let k ← bucket.layout.decodeKey key
  bucket.layout.decodeValue k value

end FundTrail.Store.Bucket
