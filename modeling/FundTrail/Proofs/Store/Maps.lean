/-
  FundTrail.Proofs.Store.Maps
  ───────────────────────────
  **THE BOOKS AS SIX FINITE MAPS.**

  For who asks it, a bucket is a finite map: under a key there is a record, or there
  is none.  `Maps.books` writes six such maps into rows, in the order of their encoded
  keys.  What is done to the books is then done to the maps, and what the books answer
  is what the maps say; bytes do not come into it.

  A map has a record under the record's own key only, and only such records as can be
  stored.  Both belong to the type of its entries (`Bucket.Entry`).

  Main facts: `books_put`, `books_deleteSwap` and `books_clear` for changes; `has_books`,
  `peek_books`, `all_books` and `allByKey_books` for questions.
-/
import FundTrail.Proofs.Store.Canonical
import FundTrail.Proofs.Store.Listing
import Mathlib.Data.Finmap
import Mathlib.Data.Finset.Sort

namespace FundTrail.Store

/-! ## §1. Entries, and the order of their keys. -/

namespace Bucket

/-- A record that belongs under this key and can be stored. -/
abbrev Entry (bucket : Bucket) (key : bucket.Key) : Type :=
  { r : bucket.Record // bucket.layout.keyOf r = key ∧ bucket.Storable r }

/-- A finite map from the keys of a bucket to its records. -/
abbrev Map (bucket : Bucket) : Type := Finmap bucket.Entry

/-- The encoded keys come in this order, or are the same. -/
def KeyLe (bucket : Bucket) (j k : bucket.Key) : Prop :=
  ¬ bucket.layout.encodeKey k < bucket.layout.encodeKey j

instance (bucket : Bucket) : DecidableRel bucket.KeyLe := fun j k =>
  inferInstanceAs (Decidable (¬ bucket.layout.encodeKey k < bucket.layout.encodeKey j))

variable {bucket : Bucket}

/-- Of two keys whose encoded forms come in no order there is one. -/
theorem KeyLe.lt_of_ne {j k : bucket.Key} (h : bucket.KeyLe j k) (hne : j ≠ k) :
    bucket.layout.encodeKey j < bucket.layout.encodeKey k := by
  rcases Bytes.lt_or_eq_or_gt (bucket.layout.encodeKey j) (bucket.layout.encodeKey k) with
    hlt | heq | hgt
  · exact hlt
  · exact absurd (bucket.keyed_layout.encodeKey_inj heq) hne
  · exact absurd hgt h

instance : IsTrans bucket.Key bucket.KeyLe where
  trans j k l hjk hkl hlj := by
    by_cases hne : j = k
    · subst hne
      exact hkl hlj
    · exact hkl (List.lt_trans hlj (hjk.lt_of_ne hne))

instance : Std.Antisymm bucket.KeyLe where
  antisymm j k hjk hkj := by
    by_contra hne
    exact hkj (hjk.lt_of_ne hne)

instance : Std.Total bucket.KeyLe where
  total j k := by
    by_contra hnot
    obtain ⟨hjk, hkj⟩ := not_or.mp hnot
    exact List.lt_irrefl _ (List.lt_trans (not_not.mp hjk) (not_not.mp hkj))

/-! ## §2. One map, written into rows. -/

namespace Map

/-- The entries of a map, in ascending order of their encoded keys. -/
def inOrder (m : bucket.Map) : List (Sigma bucket.Entry) :=
  (m.keys.sort bucket.KeyLe).filterMap fun key => (m.lookup key).map (Sigma.mk key)

theorem mem_inOrder {m : bucket.Map} {entry : Sigma bucket.Entry} :
    entry ∈ m.inOrder ↔ m.lookup entry.1 = some entry.2 := by
  obtain ⟨key, r⟩ := entry
  unfold inOrder
  rw [List.mem_filterMap]
  constructor
  · rintro ⟨key', -, hkey'⟩
    obtain ⟨r', hr', heq⟩ := Option.map_eq_some_iff.mp hkey'
    cases heq
    exact hr'
  · intro hr
    refine ⟨key, ?_, by rw [hr]; rfl⟩
    rw [Finset.mem_sort, Finmap.mem_keys]
    exact Finmap.mem_of_lookup_eq_some hr

/-- No key is passed over, and none comes twice. -/
theorem map_fst_inOrder (m : bucket.Map) :
    m.inOrder.map Sigma.fst = m.keys.sort bucket.KeyLe := by
  have hall : ∀ keys : List bucket.Key, (∀ key ∈ keys, key ∈ m) →
      (keys.filterMap fun key => (m.lookup key).map (Sigma.mk key)).map Sigma.fst = keys := by
    intro keys hkeys
    induction keys with
    | nil => rfl
    | cons key keys ih =>
      obtain ⟨r, hr⟩ := Finmap.mem_iff.mp (hkeys key List.mem_cons_self)
      have hrest := ih fun k hk => hkeys k (List.mem_cons_of_mem _ hk)
      rw [List.filterMap_cons_some (by rw [hr]; rfl), List.map_cons, hrest]
  refine hall _ fun key hkey => ?_
  rwa [Finset.mem_sort, Finmap.mem_keys] at hkey

theorem length_inOrder (m : bucket.Map) : m.inOrder.length = m.keys.card := by
  rw [← List.length_map (f := Sigma.fst), map_fst_inOrder, Finset.length_sort]

/-- **The entries stand in ascending order of their encoded keys.** -/
theorem pairwise_inOrder (m : bucket.Map) :
    m.inOrder.Pairwise fun d e =>
      bucket.layout.encodeKey d.1 < bucket.layout.encodeKey e.1 := by
  have hkeys : (m.inOrder.map Sigma.fst).Pairwise fun j k =>
      bucket.layout.encodeKey j < bucket.layout.encodeKey k := by
    rw [map_fst_inOrder]
    have hle := m.keys.pairwise_sort bucket.KeyLe
    have hne := m.keys.sort_nodup bucket.KeyLe
    exact hle.imp₂ (fun _ _ h hne => h.lt_of_ne hne) hne
  rwa [List.pairwise_map] at hkeys

/-- The row of an entry. -/
def rowOf (entry : Sigma bucket.Entry) : Row :=
  (bucket.layout.encodeKey entry.1, bucket.layout.encodeValue entry.2.1)

/-- The rows of a map. -/
def rows (m : bucket.Map) : Rows :=
  ⟨m.inOrder.map rowOf, by rw [List.pairwise_map]; exact m.pairwise_inOrder⟩

theorem get?_rows_eq_some_iff {m : bucket.Map} {raw value : Bytes} :
    m.rows.get? raw = some value ↔ ∃ key r, m.lookup key = some r
      ∧ bucket.layout.encodeKey key = raw ∧ bucket.layout.encodeValue r.1 = value := by
  rw [Rows.get?_eq_some_iff]
  unfold rows
  rw [List.mem_map]
  constructor
  · rintro ⟨⟨key, r⟩, hmem, hrow⟩
    obtain ⟨hkey, hvalue⟩ := Prod.mk.inj hrow
    exact ⟨key, r, mem_inOrder.mp hmem, hkey, hvalue⟩
  · rintro ⟨key, r, hr, rfl, rfl⟩
    exact ⟨⟨key, r⟩, mem_inOrder.mpr hr, rfl⟩

theorem get?_rows (m : bucket.Map) (key : bucket.Key) :
    m.rows.get? (bucket.layout.encodeKey key)
      = (m.lookup key).map fun r => bucket.layout.encodeValue r.1 := by
  apply Option.ext
  intro value
  rw [get?_rows_eq_some_iff, Option.map_eq_some_iff]
  constructor
  · rintro ⟨key', r, hr, hkey, hvalue⟩
    obtain rfl := bucket.keyed_layout.encodeKey_inj hkey
    exact ⟨r, hr, hvalue⟩
  · rintro ⟨r, hr, hvalue⟩
    exact ⟨key, r, hr, rfl, hvalue⟩

theorem rows_empty : (∅ : bucket.Map).rows = .empty := by
  apply Rows.ext_get?
  intro raw
  apply Option.ext
  intro value
  rw [get?_rows_eq_some_iff, Rows.get?_empty]
  constructor
  · rintro ⟨key, r, hr, -⟩
    rw [Finmap.lookup_empty] at hr
    exact nomatch hr
  · exact nofun

/-- A key that no encoded key is has no row. -/
theorem get?_rows_eq_none {m : bucket.Map} {raw : Bytes}
    (h : ∀ key, bucket.layout.encodeKey key ≠ raw) : m.rows.get? raw = none := by
  rw [Option.eq_none_iff_forall_ne_some]
  intro value hvalue
  obtain ⟨key, r, -, hkey, -⟩ := get?_rows_eq_some_iff.mp hvalue
  exact h key hkey

/-- Rows that agree with a map under every encoded key, and have no others, are its
rows. -/
theorem eq_rows {rows : Rows} {m : bucket.Map}
    (hkeys : ∀ key, rows.get? (bucket.layout.encodeKey key)
      = (m.lookup key).map fun r => bucket.layout.encodeValue r.1)
    (hothers : ∀ raw, (∀ key, bucket.layout.encodeKey key ≠ raw) → rows.get? raw = none) :
    rows = m.rows := by
  apply Rows.ext_get?
  intro raw
  by_cases hraw : ∃ key, bucket.layout.encodeKey key = raw
  · obtain ⟨key, rfl⟩ := hraw
    rw [hkeys, get?_rows]
  · have hnone : ∀ key, bucket.layout.encodeKey key ≠ raw := fun key h => hraw ⟨key, h⟩
    rw [hothers raw hnone, get?_rows_eq_none hnone]

theorem rows_insert (m : bucket.Map) (key : bucket.Key) (r : bucket.Entry key) :
    m.rows.insert (bucket.layout.encodeKey key) (bucket.layout.encodeValue r.1)
      = Map.rows (m.insert key r) := by
  refine eq_rows (fun j => ?_) fun raw hraw => ?_
  · rw [Rows.get?_insert]
    by_cases hj : key = j
    · subst hj
      rw [if_pos rfl, Finmap.lookup_insert]
      rfl
    · rw [if_neg fun h => hj (bucket.keyed_layout.encodeKey_inj h), get?_rows,
        Finmap.lookup_insert_of_ne _ (Ne.symm hj)]
  · rw [Rows.get?_insert, if_neg (hraw key), get?_rows_eq_none hraw]

theorem rows_erase (m : bucket.Map) (key : bucket.Key) :
    m.rows.erase (bucket.layout.encodeKey key) = Map.rows (m.erase key) := by
  refine eq_rows (fun j => ?_) fun raw hraw => ?_
  · rw [Rows.get?_erase]
    by_cases hj : key = j
    · subst hj
      rw [if_pos rfl, Finmap.lookup_erase]
      rfl
    · rw [if_neg fun h => hj (bucket.keyed_layout.encodeKey_inj h), get?_rows,
        Finmap.lookup_erase_ne (Ne.symm hj)]
  · rw [Rows.get?_erase, if_neg (hraw key), get?_rows_eq_none hraw]

end Map

end Bucket

/-! ## §3. Six maps, written into books. -/

/-- A finite map for each kind of record. -/
abbrev Maps : Type := (bucket : Bucket) → bucket.Map

namespace Maps

/-- No records at all. -/
def empty : Maps := fun _ => ∅

/-- The maps with another one for one kind of record. -/
def set (m : Maps) (bucket : Bucket) (map : bucket.Map) : Maps := Function.update m bucket map

/-- Put a record under its key. -/
def put (m : Maps) (bucket : Bucket) (r : bucket.Record) (h : bucket.Storable r) : Maps :=
  m.set bucket ((m bucket).insert (bucket.layout.keyOf r) ⟨r, rfl, h⟩)

/-- Take a swap out. -/
def deleteSwap (m : Maps) (txHash : Hash) : Maps := m.set .swap ((m .swap).erase txHash)

/-- Take all records of a kind out. -/
def clear (m : Maps) (bucket : Bucket) : Maps := m.set bucket ∅

/-- The books with the rows of the maps. -/
def books (m : Maps) : Books where
  exchange := (m .exchange).rows
  account := (m .account).rows
  token := (m .token).rows
  pattern := (m .pattern).rows
  swap := (m .swap).rows
  cursor := (m .cursor).rows

variable (m : Maps) (bucket : Bucket)

theorem rows_books : m.books.rows bucket = (m bucket).rows := by
  cases bucket <;> rfl

theorem books_empty : empty.books = .empty := by
  apply Books.ext_rows
  intro bucket
  rw [rows_books]
  exact Bucket.Map.rows_empty.trans (by cases bucket <;> rfl)

theorem books_set (map : bucket.Map) :
    (m.set bucket map).books = m.books.setRows bucket map.rows := by
  apply Books.ext_rows
  intro other
  rw [rows_books, Books.rows_setRows]
  by_cases hbucket : bucket = other
  · subst hbucket
    rw [if_pos rfl, set, Function.update_self]
  · rw [if_neg hbucket, rows_books, set, Function.update_of_ne (Ne.symm hbucket)]

/-! ## §4. Changes. -/

theorem books_put (r : bucket.Record) (h : bucket.Storable r) :
    (m.put bucket r h).books = m.books.put bucket.layout r := by
  unfold put Books.put Books.putRaw
  rw [books_set, Bucket.bucket_layout, rows_books, Bucket.Map.rows_insert (m bucket) _ ⟨r, rfl, h⟩]

theorem books_deleteSwap (txHash : Hash) :
    (m.deleteSwap txHash).books = m.books.erase .swaps txHash := by
  have hrows := Bucket.Map.rows_erase (m .swap) txHash
  unfold deleteSwap
  rw [books_set, ← hrows, ← rows_books]
  rfl

theorem books_clear : (m.clear bucket).books = m.books.clear bucket := by
  unfold clear Books.clear
  rw [books_set, Bucket.Map.rows_empty]

/-! ## §5. Questions. -/

theorem raw?_books (key : bucket.Key) :
    m.books.raw? bucket.layout key
      = ((m bucket).lookup key).map fun r => bucket.layout.encodeValue r.1 := by
  unfold Books.raw?
  rw [Bucket.bucket_layout, rows_books, Bucket.Map.get?_rows]

/-- **There is a record where the map has one.** -/
theorem has_books (key : bucket.Key) :
    m.books.has bucket.layout key = ((m bucket).lookup key).isSome := by
  unfold Books.has
  rw [raw?_books, Option.isSome_map]

theorem decodeValue_entry {key : bucket.Key} (r : bucket.Entry key) :
    bucket.layout.decodeValue key (bucket.layout.encodeValue r.1) = .ok r.1 := by
  obtain ⟨r, rfl, h⟩ := r
  exact Bucket.keeps_of_storable h

/-- **The record that is fetched is the one in the map.** -/
theorem peek_books (key : bucket.Key) :
    m.books.peek bucket.layout key
      = match (m bucket).lookup key with
        | some r => .ok r.1
        | none => .error (.notFound bucket (bucket.layout.encodeKey key)) := by
  unfold Books.peek
  rw [raw?_books]
  cases (m bucket).lookup key with
  | none => rw [Bucket.bucket_layout]; rfl
  | some r => exact decodeValue_entry bucket r

theorem decodeRows_entries (entries : List (Sigma bucket.Entry)) :
    Books.decodeRows bucket.layout (entries.map Bucket.Map.rowOf)
      = .ok (entries.map fun entry => entry.2.1) := by
  induction entries with
  | nil => rfl
  | cons entry entries ih =>
    obtain ⟨key, r⟩ := entry
    rw [List.map_cons, Bucket.Map.rowOf, Books.decodeRows_cons,
      bucket.keyed_layout.decodeKey_encodeKey, ih]
    show (bucket.layout.decodeValue key (bucket.layout.encodeValue r.1) >>= _) = _
    rw [decodeValue_entry]
    rfl

/-- **The records are listed once each, in the order of their encoded keys.** -/
theorem all_books :
    m.books.all bucket.layout = .ok ((m bucket).inOrder.map fun entry => entry.2.1) := by
  unfold Books.all
  rw [Bucket.bucket_layout, rows_books]
  exact decodeRows_entries bucket _

theorem allByKey_books :
    m.books.allByKey bucket.layout
      = .ok ((m bucket).inOrder.map fun entry =>
          (bucket.layout.encodeKey entry.1, entry.2.1)) := by
  unfold Books.allByKey
  rw [all_books]
  show Except.ok (List.map _ (List.map _ _)) = _
  rw [List.map_map]
  congr 1
  refine List.map_congr_left fun entry _ => ?_
  obtain ⟨key, r, rfl, -⟩ := entry
  rfl

theorem size_books : (m.books.rows bucket).size = (m bucket).keys.card := by
  rw [rows_books, ← Bucket.Map.length_inOrder]
  exact List.length_map _

end Maps

end FundTrail.Store
