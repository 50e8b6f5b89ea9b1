/-
  FundTrail.Proofs.Store.Readable
  ───────────────────────────────
  **BOOKS IN WHICH EVERY ROW CAN BE READ.**

  A row is bytes, and bytes may be anything.  Where every row can be read, a
  look-up finds a record or nothing and never fails; and whatever is put so that
  it can be read again leaves the books readable.

  Main facts: `Readable.find?` and `Readable.put`.
-/
import FundTrail.Proofs.Store.Records
import FundTrail.Store.Layout

namespace FundTrail.Store

namespace Table

theorem keyed_cursor : cursor.Keyed where
  decodeKey_encodeKey _ := by
    show decodeCursorKey cursorKey = .ok ()
    unfold decodeCursorKey
    rw [if_pos rfl]
  keyOf_decodeValue _ := rfl

/-- An account with short names leaves a value that can be read. -/
theorem decodeValue_encodeValue_accounts {a : Account} (h : ∀ s ∈ a.fromExchanges, IsShort s) :
    ∃ found, accounts.decodeValue (accounts.keyOf a) (accounts.encodeValue a) = .ok found := by
  -- the names come last; the amounts in front can always be read
  obtain ⟨names, left, hnames⟩ := readNames_writeNames h []
  rw [List.append_nil] at hnames
  have hread : readAccount a.address (writeAccount a)
      = .ok (⟨a.address, a.totalReceived, a.totalSpent, names⟩, left) := by
    unfold readAccount writeAccount
    rw [List.append_assoc, Reader.bind_ok (reads_amount _ _), Reader.bind_ok (reads_amount _ _),
      Reader.bind_ok hnames]
    rfl
  refine ⟨⟨a.address, a.totalReceived, a.totalSpent, names⟩, ?_⟩
  rw [decodeValue_accounts, encodeValue_accounts, keyOf_accounts]
  unfold Reader.decode
  rw [hread]

end Table

/-- The key of the row names a record, and its value holds one. -/
def Bucket.CanRead (bucket : Bucket) (row : Row) : Prop :=
  ∃ r, bucket.readRow row.1 row.2 = .ok r

namespace Books

/-- Every row of every bucket can be read. -/
def Readable (b : Books) : Prop :=
  ∀ bucket, ∀ row ∈ (b.rows bucket).toList, bucket.CanRead row

theorem readable_empty : Readable .empty := by
  intro bucket row hrow
  cases bucket <;> cases hrow

variable {b : Books}

/-- **A look-up in readable books never fails.** -/
theorem Readable.find? (h : b.Readable) (bucket : Bucket) (ht : bucket.layout.Keyed)
    (key : bucket.Key) : ∃ found, b.find? bucket.layout key = .ok found := by
  cases hraw : b.raw? bucket.layout key with
  | none =>
    refine ⟨none, ?_⟩
    unfold Books.find?
    rw [hraw]
  | some value =>
    -- the value stands in a row, so it can be read under the key of the row
    have hrow : (bucket.layout.encodeKey key, value) ∈ (b.rows bucket).toList := by
      unfold raw? at hraw
      rw [Bucket.bucket_layout] at hraw
      exact Rows.get?_eq_some_iff.mp hraw
    obtain ⟨r, hr⟩ := h bucket _ hrow
    unfold Bucket.readRow at hr
    rw [ht.decodeKey_encodeKey] at hr
    change bucket.layout.decodeValue key value = .ok r at hr
    refine ⟨some r, ?_⟩
    unfold Books.find?
    rw [hraw]
    show (bucket.layout.decodeValue key value).map some = _
    rw [hr]
    rfl

/-- What is found, or the fallback where there is nothing. -/
theorem Readable.findOr (h : b.Readable) (bucket : Bucket) (ht : bucket.layout.Keyed)
    (key : bucket.Key) (fallback : bucket.Record) :
    ∃ r, b.findOr bucket.layout key fallback = .ok r
      ∧ (r = fallback ∨ b.find? bucket.layout key = .ok (some r)) := by
  obtain ⟨found, hfound⟩ := h.find? bucket ht key
  refine ⟨found.getD fallback, by rw [findOr_eq, hfound]; rfl, ?_⟩
  cases found with
  | none => exact .inl rfl
  | some r => exact .inr hfound

/-- **What can be read again may be put.** -/
theorem Readable.put (h : b.Readable) (bucket : Bucket) (ht : bucket.layout.Keyed)
    {r : bucket.Record}
    (hr : ∃ found, bucket.layout.decodeValue (bucket.layout.keyOf r)
      (bucket.layout.encodeValue r) = .ok found) :
    (b.put bucket.layout r).Readable := by
  intro other row hrow
  unfold Books.put putRaw at hrow
  rw [rows_setRows, Bucket.bucket_layout] at hrow
  by_cases hbucket : bucket = other
  · subst hbucket
    rw [if_pos rfl] at hrow
    rcases Rows.mem_insertInto hrow with rfl | hrow
    · -- the new row
      obtain ⟨found, hfound⟩ := hr
      refine ⟨found, ?_⟩
      unfold Bucket.readRow
      rw [ht.decodeKey_encodeKey]
      exact hfound
    · exact h bucket row hrow
  -- the other buckets have the rows they had
  · rw [if_neg hbucket] at hrow
    exact h other row hrow

end Books

end FundTrail.Store
