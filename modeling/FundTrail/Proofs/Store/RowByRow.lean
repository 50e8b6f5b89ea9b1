/-
  FundTrail.Proofs.Store.RowByRow
  ───────────────────────────────
  **A BUCKET IS LISTED ROW BY ROW.**

  All records of a kind are the rows of its bucket, each of them read, in the order of
  the rows; and the first row that cannot be read is why they cannot be listed.  Keys
  have one spelling, so what is listed is what is found under its key, in ascending
  order of the encoded keys.

  Main facts: `decodeRows_eq_ok_iff`, `decodeRows_eq_error_iff`, `mem_all_iff_find?` and
  `pairwise_all`.
-/
import FundTrail.Proofs.Store.Canonical
import FundTrail.Proofs.Store.Listing
import FundTrail.Proofs.Store.Readable

namespace FundTrail.Store

/-! ## §1. The rows of a bucket, one by one. -/

/-- The first row that cannot be read, and why it cannot. -/
def Bucket.FirstFault (bucket : Bucket) (rows : List Row) (e : StoreError) : Prop :=
  ∃ before row after, rows = before ++ row :: after
    ∧ (∀ row' ∈ before, bucket.CanRead row') ∧ bucket.readRow row.1 row.2 = .error e

namespace Books

/-- Every row of a bucket can be read. -/
def CanList (b : Books) (bucket : Bucket) : Prop :=
  ∀ row ∈ (b.rows bucket).toList, bucket.CanRead row

variable {b : Books} {bucket : Bucket} {rows : List Row}

theorem decodeRows_cons_readRow (row : Row) (rows : List Row) :
    decodeRows bucket.layout (row :: rows) = bucket.readRow row.1 row.2 >>= fun r =>
      (decodeRows bucket.layout rows).map fun rs => r :: rs := by
  rw [decodeRows_cons]
  unfold Bucket.readRow
  cases bucket.layout.decodeKey row.1 <;> rfl

/-- Records are listed row by row. -/
theorem decodeRows_eq_ok_iff {rs : List bucket.Record} :
    decodeRows bucket.layout rows = .ok rs
      ↔ List.Forall₂ (fun row r => bucket.readRow row.1 row.2 = .ok r) rows rs := by
  induction rows generalizing rs with
  | nil =>
    rw [List.forall₂_nil_left_iff]
    exact ⟨fun h => (Except.ok.inj h).symm, fun h => h ▸ rfl⟩
  | cons row rows ih =>
    rw [decodeRows_cons_readRow, List.forall₂_cons_left_iff]
    simp only [← ih]
    cases bucket.readRow row.1 row.2 with
    | error e => exact ⟨nofun, fun ⟨_, _, h, _⟩ => nomatch h⟩
    | ok r =>
      show (decodeRows bucket.layout rows).map _ = _ ↔ _
      cases decodeRows bucket.layout rows with
      | error e => exact ⟨nofun, fun ⟨_, _, _, h, _⟩ => nomatch h⟩
      | ok rest =>
        constructor
        · intro h
          exact ⟨r, rest, rfl, rfl, (Except.ok.inj h).symm⟩
        · rintro ⟨r', rest', hr, hrest, rfl⟩
          rw [Except.ok.inj hr, Except.ok.inj hrest]
          rfl

/-- The first row that cannot be read is what keeps a bucket from being listed. -/
theorem decodeRows_eq_error_iff {e : StoreError} :
    decodeRows bucket.layout rows = .error e ↔ bucket.FirstFault rows e := by
  induction rows with
  | nil =>
    refine ⟨nofun, ?_⟩
    rintro ⟨before, row, after, hrows, -⟩
    exact absurd hrows (by simp)
  | cons row rows ih =>
    rw [decodeRows_cons_readRow]
    cases hrow : bucket.readRow row.1 row.2 with
    | error f =>
      -- no fault can be behind this one
      show Except.error f = _ ↔ _
      constructor
      · intro h
        exact ⟨[], row, rows, rfl, nofun, hrow.trans (congrArg _ (Except.error.inj h))⟩
      · rintro ⟨before, row', after, hrows, hread, hfault⟩
        cases before with
        | nil =>
          obtain ⟨rfl, -⟩ := List.cons.inj hrows
          exact congrArg _ (Except.error.inj (hrow.symm.trans hfault))
        | cons first before =>
          obtain ⟨rfl, -⟩ := List.cons.inj hrows
          obtain ⟨r, hr⟩ := hread row List.mem_cons_self
          exact nomatch hr.symm.trans hrow
    | ok r =>
      have hmap : ((decodeRows bucket.layout rows).map fun rs => r :: rs) = .error e
          ↔ decodeRows bucket.layout rows = .error e := by
        cases decodeRows bucket.layout rows with
        | error f => exact ⟨fun h => h, fun h => h⟩
        | ok rs => exact ⟨nofun, nofun⟩
      show ((decodeRows bucket.layout rows).map fun rs => r :: rs) = .error e ↔ _
      rw [hmap, ih]
      constructor
      · rintro ⟨before, row', after, rfl, hread, hfault⟩
        exact ⟨row :: before, row', after, rfl,
          List.forall_mem_cons.mpr ⟨⟨r, hrow⟩, hread⟩, hfault⟩
      · -- this row can be read, so the fault is behind it
        rintro ⟨before, row', after, hrows, hread, hfault⟩
        cases before with
        | nil =>
          obtain ⟨rfl, -⟩ := List.cons.inj hrows
          exact nomatch hrow.symm.trans hfault
        | cons first before =>
          obtain ⟨rfl, rfl⟩ := List.cons.inj hrows
          exact ⟨before, row', after, rfl, (List.forall_mem_cons.mp hread).2, hfault⟩

theorem not_canList_of_firstFault {e : StoreError}
    (h : bucket.FirstFault (b.rows bucket).toList e) : ¬ b.CanList bucket := by
  obtain ⟨before, row, after, hrows, -, hfault⟩ := h
  intro hlist
  obtain ⟨r, hr⟩ := hlist row (by rw [hrows]; simp)
  exact nomatch hr.symm.trans hfault

/-! ## §2. What is listed of a bucket. -/

theorem all_layout (b : Books) (bucket : Bucket) :
    b.all bucket.layout = decodeRows bucket.layout (b.rows bucket).toList := by
  unfold all
  rw [Bucket.bucket_layout]

/-- What can be listed is. -/
theorem CanList.exists_all (h : b.CanList bucket) : ∃ rs, b.all bucket.layout = .ok rs := by
  rw [all_layout]
  cases hrows : decodeRows bucket.layout (b.rows bucket).toList with
  | error e => exact absurd h (not_canList_of_firstFault (decodeRows_eq_error_iff.mp hrows))
  | ok rs => exact ⟨rs, rfl⟩

/-- What a value is read into is found under the key of the value. -/
theorem find?_of_raw? {key : bucket.Key} {value : Bytes} {r : bucket.Record}
    (hraw : (b.rows bucket).get? (bucket.layout.encodeKey key) = some value)
    (hvalue : bucket.layout.decodeValue key value = .ok r) :
    b.find? bucket.layout key = .ok (some r) := by
  have h : b.raw? bucket.layout key = some value := by
    unfold raw?
    rw [Bucket.bucket_layout, hraw]
  unfold find?
  rw [h]
  show (bucket.layout.decodeValue key value).map some = _
  rw [hvalue]
  rfl

/-- A row holds a record if it has its key, and its value can be read into it. -/
theorem readRow_eq_ok_iff {key value : Bytes} {r : bucket.Record} :
    bucket.readRow key value = .ok r
      ↔ key = bucket.layout.encodeKey (bucket.layout.keyOf r)
        ∧ bucket.layout.decodeValue (bucket.layout.keyOf r) value = .ok r := by
  unfold Bucket.readRow
  constructor
  · intro h
    cases hkey : bucket.layout.decodeKey key with
    | error e => rw [hkey] at h; exact nomatch h
    | ok k =>
      rw [hkey] at h
      change bucket.layout.decodeValue k value = .ok r at h
      rw [bucket.keyed_layout.keyOf_decodeValue h, Bucket.encodeKey_of_decodeKey hkey]
      exact ⟨rfl, h⟩
  · rintro ⟨rfl, h⟩
    rw [bucket.keyed_layout.decodeKey_encodeKey]
    exact h

variable {rs : List bucket.Record} (hall : b.all bucket.layout = .ok rs)

include hall

/-- The records that are listed are what the rows are read into. -/
theorem map_readRow_of_all :
    (b.rows bucket).toList.map (fun row => bucket.readRow row.1 row.2) = rs.map .ok := by
  rw [← List.forall₂_eq_eq_eq, List.forall₂_map_left_iff, List.forall₂_map_right_iff]
  rw [all_layout] at hall
  exact decodeRows_eq_ok_iff.mp hall

/-- What is listed can be read. -/
theorem canList_of_all : b.CanList bucket := by
  intro row hrow
  have hread : bucket.readRow row.1 row.2 ∈ rs.map .ok := by
    rw [← map_readRow_of_all hall]
    exact List.mem_map.mpr ⟨row, hrow, rfl⟩
  obtain ⟨r, -, hr⟩ := List.mem_map.mp hread
  exact ⟨r, hr.symm⟩

/-- **A record is listed if it is found under its key.** -/
theorem mem_all_iff_find? {r : bucket.Record} :
    r ∈ rs ↔ b.find? bucket.layout (bucket.layout.keyOf r) = .ok (some r) := by
  rw [← List.mem_map_of_injective (f := Except.ok (ε := StoreError)) fun _ _ => Except.ok.inj,
    ← map_readRow_of_all hall, List.mem_map]
  constructor
  · rintro ⟨⟨key, value⟩, hrow, hr⟩
    obtain ⟨rfl, hvalue⟩ := readRow_eq_ok_iff.mp hr
    exact find?_of_raw? (Rows.get?_eq_some_iff.mpr hrow) hvalue
  · intro hfind
    obtain ⟨value, hraw, hvalue⟩ := exists_value_of_find? hfind
    unfold raw? at hraw
    rw [Bucket.bucket_layout] at hraw
    exact ⟨(_, value), Rows.get?_eq_some_iff.mp hraw, readRow_eq_ok_iff.mpr ⟨rfl, hvalue⟩⟩

/-- The record with a key that is looked for among those that are listed, in whatever
order, is the one that is found in the books. -/
theorem find?_mem_all_iff {l : List bucket.Record} (hl : ∀ r, r ∈ l ↔ r ∈ rs) {key : bucket.Key}
    {r : bucket.Record} : (l.find? fun r => bucket.layout.keyOf r = key) = some r
      ↔ b.find? bucket.layout key = .ok (some r) := by
  have hfound : ∀ {r : bucket.Record}, (l.find? fun r => bucket.layout.keyOf r = key) = some r →
      b.find? bucket.layout key = .ok (some r) := by
    intro r hr
    obtain rfl : bucket.layout.keyOf r = key := by simpa using List.find?_some hr
    exact (mem_all_iff_find? hall).mp ((hl r).mp (List.mem_of_find?_eq_some hr))
  refine ⟨hfound, fun hr => ?_⟩
  have hkey : bucket.layout.keyOf r = key := keyOf_find? bucket.keyed_layout hr
  have hmem : r ∈ l := (hl r).mpr ((mem_all_iff_find? hall).mpr (hkey ▸ hr))
  -- something is found in the list, and under one key nothing else can be
  have hsome : (l.find? fun r => bucket.layout.keyOf r = key).isSome = true :=
    List.find?_isSome.mpr ⟨r, hmem, decide_eq_true hkey⟩
  obtain ⟨s, hs⟩ := Option.isSome_iff_exists.mp hsome
  rw [hs, find?_unique (hfound hs) hr]

/-- **Records are listed in the order of their keys.** -/
theorem pairwise_all : rs.Pairwise fun r s =>
    bucket.layout.encodeKey (bucket.layout.keyOf r)
      < bucket.layout.encodeKey (bucket.layout.keyOf s) := by
  rw [all_layout] at hall
  have hkeys : (b.rows bucket).toList.map Prod.fst
      = rs.map fun r => bucket.layout.encodeKey (bucket.layout.keyOf r) := by
    rw [← List.forall₂_eq_eq_eq, List.forall₂_map_left_iff, List.forall₂_map_right_iff]
    exact (decodeRows_eq_ok_iff.mp hall).imp fun row r hr => (readRow_eq_ok_iff.mp hr).1
  have hrows : ((b.rows bucket).toList.map Prod.fst).Pairwise (· < ·) :=
    List.pairwise_map.mpr (b.rows bucket).ascending
  rw [hkeys] at hrows
  exact List.pairwise_map.mp hrows

end Books

end FundTrail.Store
