/-
  FundTrail.Store.Books
  ─────────────────────
  **THE BOOKS: SIX BUCKETS AND WHAT CAN BE DONE WITH THEM.**

  The books are a value: an operation gives new books and leaves the old ones as
  they are.  So to undo is to keep the old value, and "nothing was written" is
  an equation between bytes.

  Main facts: `rows_setRows` — a bucket holds what was put into it, and no other
  bucket notices — and `find?_put`, the same for records.
-/
import FundTrail.Store.Rows
import FundTrail.Store.Table

namespace FundTrail.Store

/-- The contents of the six buckets. -/
structure Books where
  exchange : Rows
  account : Rows
  token : Rows
  pattern : Rows
  swap : Rows
  cursor : Rows
  deriving DecidableEq

namespace Books

variable {κ ρ : Type}

/-- Books without any row. -/
def empty : Books := ⟨.empty, .empty, .empty, .empty, .empty, .empty⟩

instance : Inhabited Books := ⟨empty⟩

/-! ## §1. Buckets. -/

/-- The rows of a bucket. -/
def rows (b : Books) : Bucket → Rows
  | .exchange => b.exchange
  | .account => b.account
  | .token => b.token
  | .pattern => b.pattern
  | .swap => b.swap
  | .cursor => b.cursor

/-- The books with other rows in one bucket. -/
def setRows (b : Books) (bucket : Bucket) (rows : Rows) : Books :=
  match bucket with
  | .exchange => { b with exchange := rows }
  | .account => { b with account := rows }
  | .token => { b with token := rows }
  | .pattern => { b with pattern := rows }
  | .swap => { b with swap := rows }
  | .cursor => { b with cursor := rows }

theorem rows_setRows (b : Books) (bucket other : Bucket) (rows : Rows) :
    (b.setRows bucket rows).rows other = if bucket = other then rows else b.rows other := by
  cases bucket <;> cases other <;> rfl

/-- Books with the same rows in every bucket are equal. -/
theorem ext_rows {a b : Books} (h : ∀ bucket, a.rows bucket = b.rows bucket) : a = b := by
  have h1 := h .exchange
  have h2 := h .account
  have h3 := h .token
  have h4 := h .pattern
  have h5 := h .swap
  have h6 := h .cursor
  cases a; cases b
  simp only [rows] at h1 h2 h3 h4 h5 h6
  subst h1 h2 h3 h4 h5 h6
  rfl

/-! ## §2. Records. -/

/-- The value bytes under a record's key. -/
def raw? (b : Books) (t : Table κ ρ) (key : κ) : Option Bytes :=
  (b.rows t.bucket).get? (t.encodeKey key)

/-- Whether a record with this key is there, readable or not. -/
def has (b : Books) (t : Table κ ρ) (key : κ) : Bool := (b.raw? t key).isSome

/-- The record with this key, if it is there. -/
def find? (b : Books) (t : Table κ ρ) (key : κ) : Except StoreError (Option ρ) :=
  match b.raw? t key with
  | none => .ok none
  | some value => (t.decodeValue key value).map some

/-- The record with this key. -/
def peek (b : Books) (t : Table κ ρ) (key : κ) : Except StoreError ρ :=
  match b.raw? t key with
  | none => .error (.notFound t.bucket (t.encodeKey key))
  | some value => t.decodeValue key value

/-- The record with this key, or `fallback` if there is none. -/
def findOr (b : Books) (t : Table κ ρ) (key : κ) (fallback : ρ) : Except StoreError ρ :=
  match b.raw? t key with
  | none => .ok fallback
  | some value => t.decodeValue key value

/-- Set raw bytes under a raw key. -/
def putRaw (b : Books) (bucket : Bucket) (key value : Bytes) : Books :=
  b.setRows bucket ((b.rows bucket).insert key value)

/-- Write a record, in place of the one with its key. -/
def put (b : Books) (t : Table κ ρ) (r : ρ) : Books :=
  b.putRaw t.bucket (t.encodeKey (t.keyOf r)) (t.encodeValue r)

/-- Change the record with a key, or the fallback where there is none. -/
def revise (t : Table κ ρ) (key : κ) (fallback : ρ) (change : ρ → ρ) (b : Books) :
    Except StoreError Books :=
  (b.findOr t key fallback).map fun r => b.put t (change r)

/-- Remove the record with this key, if it is there. -/
def erase (b : Books) (t : Table κ ρ) (key : κ) : Books :=
  b.setRows t.bucket ((b.rows t.bucket).erase (t.encodeKey key))

/-- Remove all rows of a bucket. -/
def clear (b : Books) (bucket : Bucket) : Books := b.setRows bucket .empty

/-- The records of some rows, in order, or the first fault. -/
def decodeRows (t : Table κ ρ) : List Row → Except StoreError (List ρ)
  | [] => .ok []
  | (key, value) :: rows => do
      let k ← t.decodeKey key
      let r ← t.decodeValue k value
      let rs ← decodeRows t rows
      pure (r :: rs)

/-- All records of a kind, in the order of their encoded keys. -/
def all (b : Books) (t : Table κ ρ) : Except StoreError (List ρ) :=
  decodeRows t (b.rows t.bucket).toList

/-- All records of a kind, each with its encoded key. -/
def allByKey (b : Books) (t : Table κ ρ) : Except StoreError (List (Bytes × ρ)) :=
  (b.all t).map fun rs => rs.map fun r => (t.encodeKey (t.keyOf r), r)

/-- The cursor, once a block has been booked. -/
def cursor? (b : Books) : Except StoreError (Option Cursor) := b.find? .cursor ()

theorem raw?_put_self (b : Books) (t : Table κ ρ) (r : ρ) :
    (b.put t r).raw? t (t.keyOf r) = some (t.encodeValue r) := by
  unfold raw? put putRaw
  rw [rows_setRows, if_pos rfl, Rows.get?_insert, if_pos rfl]

/-! ## §3. The report on patterns. -/

/-- A pattern with what is known of its token. -/
structure Report where
  pattern : Pattern
  symbol : String
  decimals : UInt8
  price : Amount
  deriving DecidableEq, Repr

/-- The report on one pattern, if its token is among `tokens`. -/
def reportOn (tokens : List Token) (p : Pattern) : Option Report :=
  (tokens.find? fun t => t.address = p.token).map fun t =>
    ⟨p, t.symbol, t.decimals, t.price⟩

/-- All patterns whose token is known, the most frequent first; patterns that
occurred equally often keep the order of their keys. -/
def reports (b : Books) : Except StoreError (List Report) := do
  let tokens ← b.all .tokens
  let patterns ← b.all .patterns
  pure ((patterns.filterMap (reportOn tokens)).mergeSort fun x y =>
    decide (y.pattern.timesOccurred ≤ x.pattern.timesOccurred))

end Books

end FundTrail.Store
