/-
  FundTrail.Store.Rows
  ────────────────────
  **ONE BUCKET: A SORTED TABLE OF KEY AND VALUE BYTES.**

  A bucket holds at most one value for each key and lists its rows in ascending
  order of the key bytes.  It is kept as the strictly ascending list of its
  rows, so two buckets with the same look-ups are equal, down to the bytes.

  Main facts: `get?_insert`, `get?_erase` and `ext_get?`.
-/
import FundTrail.Bytes

namespace FundTrail.Store

/-- A key and its value. -/
abbrev Row := Bytes × Bytes

/-- The key of the first row comes before the key of the second. -/
def Row.Before (a b : Row) : Prop := a.1 < b.1

/-- The rows of one bucket. -/
structure Rows where
  toList : List Row
  ascending : toList.Pairwise Row.Before
  deriving DecidableEq

namespace Rows

/-! ## §1. Rows as a list. -/

/-- The value under a key. -/
def lookup (k : Bytes) : List Row → Option Bytes
  | [] => none
  | (k', v) :: rows => if k' = k then some v else lookup k rows

/-- Put a row into an ascending list, in place of the row with its key. -/
def insertInto (k v : Bytes) : List Row → List Row
  | [] => [(k, v)]
  | (k', v') :: rows =>
      if k < k' then (k, v) :: (k', v') :: rows
      else if k' = k then (k, v) :: rows
      else (k', v') :: insertInto k v rows

theorem lookup_insertInto (k v j : Bytes) (rows : List Row) :
    lookup j (insertInto k v rows) = if k = j then some v else lookup j rows := by
  induction rows with
  | nil => simp [insertInto, lookup]
  | cons row rows ih =>
    obtain ⟨k', v'⟩ := row
    rw [insertInto]
    split
    next => simp [lookup]
    next =>
      split
      next h =>
        subst h
        by_cases hj : k' = j <;> simp [lookup, hj]
      next h =>
        rw [lookup, ih]
        by_cases hj : k' = j
        · subst hj; simp [lookup, Ne.symm h]
        · simp [lookup, hj]

theorem mem_insertInto {k v : Bytes} {row : Row} {rows : List Row}
    (h : row ∈ insertInto k v rows) : row = (k, v) ∨ row ∈ rows := by
  induction rows with
  | nil => simpa [insertInto] using h
  | cons head rows ih =>
    obtain ⟨k', v'⟩ := head
    rw [insertInto] at h
    split at h
    next => simpa using h
    next =>
      split at h
      next =>
        rcases List.mem_cons.1 h with h | h
        · exact .inl h
        · exact .inr (List.mem_cons_of_mem _ h)
      next =>
        rcases List.mem_cons.1 h with h | h
        · exact .inr (h ▸ List.mem_cons_self)
        · exact (ih h).imp id (List.mem_cons_of_mem _)

theorem ascending_insertInto {k v : Bytes} {rows : List Row}
    (h : rows.Pairwise Row.Before) : (insertInto k v rows).Pairwise Row.Before := by
  induction rows with
  | nil => simp [insertInto]
  | cons head rows ih =>
    obtain ⟨k', v'⟩ := head
    rw [List.pairwise_cons] at h
    rw [insertInto]
    split
    next hk =>
      -- the new row is the first one
      refine List.pairwise_cons.2 ⟨?_, List.pairwise_cons.2 h⟩
      intro row hrow
      rcases List.mem_cons.1 hrow with rfl | hrow
      · exact hk
      · exact List.lt_trans hk (h.1 row hrow)
    next hk =>
      split
      next he =>
        -- the new row replaces the first one
        subst he
        exact List.pairwise_cons.2 ⟨fun row hrow => h.1 row hrow, h.2⟩
      next hne =>
        -- the new row goes further down
        refine List.pairwise_cons.2 ⟨?_, ih h.2⟩
        intro row hrow
        rcases mem_insertInto hrow with rfl | hrow
        · show k' < k
          rcases Bytes.lt_or_eq_or_gt k' k with hb | hb | hb
          · exact hb
          · exact absurd hb hne
          · exact absurd hb hk
        · exact h.1 row hrow

/-! ## §2. The bucket. -/

/-- No rows. -/
def empty : Rows := ⟨[], List.Pairwise.nil⟩

instance : Inhabited Rows := ⟨empty⟩

/-- The value under a key. -/
def get? (rows : Rows) (k : Bytes) : Option Bytes := lookup k rows.toList

/-- Set the value under a key. -/
def insert (rows : Rows) (k v : Bytes) : Rows :=
  ⟨insertInto k v rows.toList, ascending_insertInto rows.ascending⟩

/-- Remove the row with a key, if there is one. -/
def erase (rows : Rows) (k : Bytes) : Rows :=
  ⟨rows.toList.filter fun row => row.1 ≠ k, rows.ascending.filter _⟩

/-- The number of rows. -/
def size (rows : Rows) : Nat := rows.toList.length

@[simp] theorem get?_empty (k : Bytes) : empty.get? k = none := rfl

theorem get?_insert (rows : Rows) (k v j : Bytes) :
    (rows.insert k v).get? j = if k = j then some v else rows.get? j :=
  lookup_insertInto k v j rows.toList

theorem lookup_eq_some_iff {rows : List Row} (h : rows.Pairwise Row.Before) {k v : Bytes} :
    lookup k rows = some v ↔ (k, v) ∈ rows := by
  induction rows with
  | nil => simp [lookup]
  | cons head rows ih =>
    obtain ⟨k', v'⟩ := head
    rw [List.pairwise_cons] at h
    rw [lookup]
    split
    next hk =>
      subst hk
      constructor
      · intro hv; injection hv with hv; subst hv; exact List.mem_cons_self
      · intro hm
        rcases List.mem_cons.1 hm with hm | hm
        · injection hm with _ hv; rw [hv]
        · exact absurd (h.1 _ hm) (List.lt_irrefl k')
    next hk =>
      rw [ih h.2, List.mem_cons]
      constructor
      · exact .inr
      · intro hm
        rcases hm with hm | hm
        · injection hm with hk' _; exact absurd hk'.symm hk
        · exact hm

theorem get?_eq_some_iff {rows : Rows} {k v : Bytes} :
    rows.get? k = some v ↔ (k, v) ∈ rows.toList :=
  lookup_eq_some_iff rows.ascending

theorem get?_erase (rows : Rows) (k j : Bytes) :
    (rows.erase k).get? j = if k = j then none else rows.get? j := by
  apply Option.ext
  intro v
  rw [get?_eq_some_iff]
  by_cases hk : k = j
  · subst hk; simp [erase]
  · rw [if_neg hk, get?_eq_some_iff]
    simp [erase, Ne.symm hk]

/-- Ascending lists of rows with the same look-ups are equal. -/
theorem eq_of_lookup_eq {l m : List Row} (hl : l.Pairwise Row.Before)
    (hm : m.Pairwise Row.Before) (h : ∀ k, lookup k l = lookup k m) : l = m := by
  have hmem : ∀ row, row ∈ l ↔ row ∈ m := by
    intro row
    obtain ⟨k, v⟩ := row
    rw [← lookup_eq_some_iff hl, ← lookup_eq_some_iff hm, h k]
  induction l generalizing m with
  | nil =>
    cases m with
    | nil => rfl
    | cons b m => exact absurd ((hmem b).2 List.mem_cons_self) List.not_mem_nil
  | cons a l ih =>
    cases m with
    | nil => exact absurd ((hmem a).1 List.mem_cons_self) List.not_mem_nil
    | cons b m =>
      rw [List.pairwise_cons] at hl hm
      -- the first rows agree: each comes before all others of its list
      have hab : a = b := by
        rcases List.mem_cons.1 ((hmem a).1 List.mem_cons_self) with h1 | h1
        · exact h1
        · rcases List.mem_cons.1 ((hmem b).2 List.mem_cons_self) with h2 | h2
          · exact h2.symm
          · exact absurd (List.lt_trans (hl.1 b h2) (hm.1 a h1)) (List.lt_irrefl _)
      subst hab
      have hrest : ∀ row, row ∈ l ↔ row ∈ m := by
        intro row
        constructor
        · intro hr
          rcases List.mem_cons.1 ((hmem row).1 (List.mem_cons_of_mem _ hr)) with h1 | h1
          · subst h1; exact absurd (hl.1 _ hr) (List.lt_irrefl _)
          · exact h1
        · intro hr
          rcases List.mem_cons.1 ((hmem row).2 (List.mem_cons_of_mem _ hr)) with h1 | h1
          · subst h1; exact absurd (hm.1 _ hr) (List.lt_irrefl _)
          · exact h1
      rw [ih hl.2 hm.2 ?_ hrest]
      intro k
      apply Option.ext
      intro v
      rw [lookup_eq_some_iff hl.2, lookup_eq_some_iff hm.2, hrest]

/-- **Buckets with the same look-ups are equal.** -/
theorem ext_get? {r s : Rows} (h : ∀ k, r.get? k = s.get? k) : r = s := by
  have hl := eq_of_lookup_eq r.ascending s.ascending h
  cases r; cases s; cases hl; rfl

end Rows

end FundTrail.Store
