/-
  FundTrail.Proofs.Store.Listing
  ──────────────────────────────
  **ALL RECORDS OF A KIND, BEFORE AND AFTER A PUT.**

  A record that is put stands at the place of its key, and the rows on both sides of
  it stay where they were.  If it can be read again, it comes on top of the others, up
  to order, or takes the place of the one with its key; if not, no record of its kind
  can be listed.

  And where every row is that of a record that can be read again, the records that
  are listed are those that are found.

  Main facts: `all_put_of_new`, `all_put`, `all_put_error`, `all_put_of_bucket` and
  `Holds.all`.
-/
import FundTrail.Proofs.Store.Records

namespace FundTrail.Store

variable {κ κ' ρ ρ' : Type}

/-! ## §1. Rows. -/

/-- A row is put between two parts of the list that do not have its key, in place of
the row that has it, if there is one. -/
theorem Rows.exists_insertInto (k v : Bytes) {rows : List Row} (h : rows.Pairwise Row.Before) :
    ∃ l₁ old l₂, rows = l₁ ++ old ++ l₂ ∧ insertInto k v rows = l₁ ++ (k, v) :: l₂
      ∧ (∀ row ∈ old, row.1 = k) ∧ ∀ row ∈ l₁ ++ l₂, row.1 ≠ k := by
  induction rows with
  | nil => exact ⟨[], [], [], rfl, rfl, nofun, nofun⟩
  | cons row rows ih =>
    obtain ⟨k', v'⟩ := row
    obtain ⟨hbefore, hrows⟩ := List.pairwise_cons.mp h
    -- behind a row whose key is at least `k` no row has the key `k`
    have hbehind : ¬ k' < k → ∀ row ∈ rows, row.1 ≠ k := by
      rintro hle row hrow rfl
      exact hle (hbefore row hrow)
    unfold insertInto
    by_cases hless : k < k'
    · have hne : k' ≠ k := by
        rintro rfl
        exact List.lt_irrefl _ hless
      refine ⟨[], [], (k', v') :: rows, rfl, if_pos hless, nofun, fun row hrow => ?_⟩
      rcases List.mem_cons.mp hrow with rfl | hrow
      · exact hne
      · exact hbehind (fun hlt => List.lt_irrefl _ (List.lt_trans hless hlt)) row hrow
    rw [if_neg hless]
    by_cases hk : k' = k
    · subst hk
      refine ⟨[], [(k', v')], rows, rfl, if_pos rfl, fun row hrow => ?_,
        hbehind (List.lt_irrefl k')⟩
      rw [List.mem_singleton.mp hrow]
    · rw [if_neg hk]
      obtain ⟨l₁, old, l₂, hsplit, hinsert, hold, hne⟩ := ih hrows
      refine ⟨(k', v') :: l₁, old, l₂, by rw [hsplit]; rfl, by rw [hinsert]; rfl, hold,
        fun row hrow => ?_⟩
      rcases List.mem_cons.mp hrow with rfl | hrow
      · exact hk
      · exact hne row hrow

/-- A row with a new key is put between the others. -/
theorem Rows.exists_insert_of_new {rows : Rows} {k : Bytes} (h : rows.get? k = none) (v : Bytes) :
    ∃ l₁ l₂, rows.toList = l₁ ++ l₂ ∧ (rows.insert k v).toList = l₁ ++ (k, v) :: l₂ := by
  obtain ⟨l₁, old, l₂, hsplit, hinsert, hold, -⟩ := exists_insertInto k v rows.ascending
  have hnone : old = [] := by
    refine List.eq_nil_iff_forall_not_mem.mpr fun row hrow => ?_
    have hmem : (k, row.2) ∈ rows.toList := by
      rw [hsplit, ← hold row hrow]
      exact List.mem_append_left _ (List.mem_append_right _ hrow)
    rw [get?_eq_some_iff.mpr hmem] at h
    exact nomatch h
  rw [hnone, List.append_nil] at hsplit
  exact ⟨l₁, l₂, hsplit, hinsert⟩

theorem Rows.size_insert_of_new {rows : Rows} {k : Bytes} (h : rows.get? k = none) (v : Bytes) :
    (rows.insert k v).size = rows.size + 1 := by
  obtain ⟨l₁, l₂, hsplit, hinsert⟩ := exists_insert_of_new h v
  unfold size
  rw [hsplit, hinsert, List.length_append, List.length_append, List.length_cons]
  omega

namespace Books

theorem decodeRows_cons (t : Table κ ρ) (key value : Bytes) (rows : List Row) :
    decodeRows t ((key, value) :: rows) = t.decodeKey key >>= fun k =>
      t.decodeValue k value >>= fun r => (decodeRows t rows).map fun rs => r :: rs := by
  rw [decodeRows]
  cases t.decodeKey key with
  | error e => rfl
  | ok k =>
    show (t.decodeValue k value >>= _) = (t.decodeValue k value >>= _)
    cases t.decodeValue k value with
    | error e => rfl
    | ok r =>
      show (decodeRows t rows >>= _) = (decodeRows t rows).map _
      cases decodeRows t rows <;> rfl

theorem decodeRows_append (t : Table κ ρ) (l₁ l₂ : List Row) :
    decodeRows t (l₁ ++ l₂)
      = decodeRows t l₁ >>= fun rs₁ => (decodeRows t l₂).map fun rs₂ => rs₁ ++ rs₂ := by
  induction l₁ with
  | nil =>
    show decodeRows t l₂ = (decodeRows t l₂).map fun rs₂ => rs₂
    cases decodeRows t l₂ <;> rfl
  | cons row l₁ ih =>
    obtain ⟨key, value⟩ := row
    rw [List.cons_append, decodeRows_cons, decodeRows_cons, ih]
    cases t.decodeKey key with
    | error e => rfl
    | ok k =>
      show (t.decodeValue k value >>= _) = ((t.decodeValue k value >>= _) >>= _)
      cases t.decodeValue k value with
      | error e => rfl
      | ok r =>
        show (decodeRows t l₁ >>= _).map _ = ((decodeRows t l₁).map _ >>= _)
        cases decodeRows t l₁ with
        | error e => rfl
        | ok rs₁ =>
          show ((decodeRows t l₂).map _).map _ = (decodeRows t l₂).map _
          cases decodeRows t l₂ <;> rfl

theorem decodeRows_append_ok {t : Table κ ρ} {l₁ l₂ : List Row} {rs : List ρ}
    (h : decodeRows t (l₁ ++ l₂) = .ok rs) :
    ∃ rs₁ rs₂, decodeRows t l₁ = .ok rs₁ ∧ decodeRows t l₂ = .ok rs₂ ∧ rs = rs₁ ++ rs₂ := by
  rw [decodeRows_append] at h
  cases h₁ : decodeRows t l₁ with
  | error e => rw [h₁] at h; exact nomatch h
  | ok rs₁ =>
    cases h₂ : decodeRows t l₂ with
    | error e => rw [h₁, h₂] at h; exact nomatch h
    | ok rs₂ =>
      rw [h₁, h₂] at h
      exact ⟨rs₁, rs₂, rfl, rfl, (Except.ok.inj h).symm⟩

theorem decodeRows_cons_ok {t : Table κ ρ} {key value : Bytes} {rows : List Row} {rs : List ρ}
    (h : decodeRows t ((key, value) :: rows) = .ok rs) :
    ∃ k r rest, t.decodeKey key = .ok k ∧ t.decodeValue k value = .ok r
      ∧ decodeRows t rows = .ok rest ∧ rs = r :: rest := by
  rw [decodeRows_cons] at h
  cases hkey : t.decodeKey key with
  | error e => rw [hkey] at h; exact nomatch h
  | ok k =>
    rw [hkey] at h
    change (t.decodeValue k value >>= _) = _ at h
    cases hvalue : t.decodeValue k value with
    | error e => rw [hvalue] at h; exact nomatch h
    | ok r =>
      rw [hvalue] at h
      change (decodeRows t rows).map _ = _ at h
      cases hrows : decodeRows t rows with
      | error e => rw [hrows] at h; exact nomatch h
      | ok rest =>
        rw [hrows] at h
        exact ⟨k, r, rest, rfl, hvalue, rfl, (Except.ok.inj h).symm⟩

/-! ## §2. Records. -/

section

variable {t : Table κ ρ} (ht : t.Keyed) {r : ρ} {l₁ l₂ : List Row} {rs₁ rs₂ : List ρ}
  (h₁ : decodeRows t l₁ = .ok rs₁)

include ht h₁

/-- The row of a record that comes back gives the record. -/
theorem decodeRows_between (hr : t.Keeps r) (h₂ : decodeRows t l₂ = .ok rs₂) :
    decodeRows t (l₁ ++ (t.encodeKey (t.keyOf r), t.encodeValue r) :: l₂)
      = .ok (rs₁ ++ r :: rs₂) := by
  have hrow : decodeRows t ((t.encodeKey (t.keyOf r), t.encodeValue r) :: l₂)
      = .ok (r :: rs₂) := by
    rw [decodeRows_cons, ht.decodeKey_encodeKey, h₂]
    show (t.decodeValue (t.keyOf r) (t.encodeValue r) >>= _) = _
    rw [hr]
    rfl
  rw [decodeRows_append, h₁, hrow]
  rfl

/-- The row of a record that does not come back gives its fault, and so do all rows. -/
theorem decodeRows_between_error {e : StoreError}
    (hr : t.decodeValue (t.keyOf r) (t.encodeValue r) = .error e) :
    decodeRows t (l₁ ++ (t.encodeKey (t.keyOf r), t.encodeValue r) :: l₂) = .error e := by
  have hrow : decodeRows t ((t.encodeKey (t.keyOf r), t.encodeValue r) :: l₂) = .error e := by
    rw [decodeRows_cons, ht.decodeKey_encodeKey]
    show (t.decodeValue (t.keyOf r) (t.encodeValue r) >>= _) = _
    rw [hr]
    rfl
  rw [decodeRows_append, h₁, hrow]
  rfl

end

/-- **A record under a new key comes on top of the others.** -/
theorem all_put_of_new {t : Table κ ρ} (ht : t.Keyed) {r : ρ} (hr : t.Keeps r) {b : Books}
    (hnew : b.has t (t.keyOf r) = false) {rs : List ρ} (hall : b.all t = .ok rs) :
    ∃ rs', (b.put t r).all t = .ok rs' ∧ rs'.Perm (r :: rs) := by
  unfold has raw? at hnew
  rw [Option.isSome_eq_false_iff, Option.isNone_iff_eq_none] at hnew
  obtain ⟨l₁, l₂, hsplit, hinsert⟩ := Rows.exists_insert_of_new hnew (t.encodeValue r)
  unfold all at hall ⊢
  rw [hsplit] at hall
  rw [rows_put_self]
  -- the rows on both sides are read as before
  obtain ⟨rs₁, rs₂, h₁, h₂, rfl⟩ := decodeRows_append_ok hall
  refine ⟨rs₁ ++ r :: rs₂, ?_, List.perm_middle⟩
  exact (congrArg (decodeRows t) hinsert).trans (decodeRows_between ht h₁ hr h₂)

/-- Every record that is listed stands in a row with its key, if keys have one spelling. -/
theorem exists_row_of_mem {t : Table κ ρ} (ht : t.Keyed)
    (hkey : ∀ {raw key}, t.decodeKey raw = .ok key → t.encodeKey key = raw) {l : List Row}
    {rs : List ρ} (h : decodeRows t l = .ok rs) {s : ρ} (hs : s ∈ rs) :
    ∃ row ∈ l, row.1 = t.encodeKey (t.keyOf s) := by
  induction l generalizing rs with
  | nil =>
    obtain rfl := Except.ok.inj h
    exact nomatch hs
  | cons row l ih =>
    obtain ⟨k, first, rest, hk, hfirst, hrest, rfl⟩ := decodeRows_cons_ok h
    rcases List.mem_cons.mp hs with rfl | hs
    · refine ⟨row, List.mem_cons_self, ?_⟩
      rw [ht.keyOf_decodeValue hfirst, hkey hk]
    · obtain ⟨other, hother, heq⟩ := ih hrest hs
      exact ⟨other, List.mem_cons_of_mem _ hother, heq⟩

/-- **A record that comes back joins the others, and takes the place of the one with
its key.** -/
theorem all_put [DecidableEq κ] {t : Table κ ρ} (ht : t.Keyed)
    (hkey : ∀ {raw key}, t.decodeKey raw = .ok key → t.encodeKey key = raw) {r : ρ}
    (hr : t.Keeps r) {b : Books} {rs : List ρ} (hall : b.all t = .ok rs) :
    ∃ rs', (b.put t r).all t = .ok rs'
      ∧ rs'.Perm (r :: rs.filter fun s => t.keyOf s ≠ t.keyOf r) := by
  obtain ⟨l₁, old, l₂, hsplit, hinsert, hold, hothers⟩ := Rows.exists_insertInto
    (t.encodeKey (t.keyOf r)) (t.encodeValue r) (b.rows t.bucket).ascending
  unfold all at hall ⊢
  rw [hsplit] at hall
  rw [rows_put_self]
  obtain ⟨front, rs₂, hfront, h₂, rfl⟩ := decodeRows_append_ok hall
  obtain ⟨rs₁, gone, h₁, hgone, rfl⟩ := decodeRows_append_ok hfront
  -- of the records from before, those in the row that is replaced have the key
  have hgoneKey : ∀ s ∈ gone, t.keyOf s = t.keyOf r := by
    intro s hs
    obtain ⟨row, hrow, hs⟩ := exists_row_of_mem ht hkey hgone hs
    exact ht.encodeKey_inj (hs.symm.trans (hold row hrow))
  have hkept : ∀ {l ss}, (∀ row ∈ l, row ∈ l₁ ++ l₂) → decodeRows t l = .ok ss →
      ss.filter (fun s => t.keyOf s ≠ t.keyOf r) = ss := by
    intro l ss hl hss
    refine List.filter_eq_self.mpr fun s hs => decide_eq_true fun hsame => ?_
    obtain ⟨row, hrow, hs⟩ := exists_row_of_mem ht hkey hss hs
    exact hothers row (hl row hrow) (hs.trans (congrArg t.encodeKey hsame))
  refine ⟨rs₁ ++ r :: rs₂,
    (congrArg (decodeRows t) hinsert).trans (decodeRows_between ht h₁ hr h₂), ?_⟩
  rw [List.filter_append, List.filter_append, hkept (fun _ => List.mem_append_left _) h₁,
    hkept (fun _ => List.mem_append_right _) h₂,
    List.filter_eq_nil_iff.mpr fun s hs => by simp [hgoneKey s hs], List.append_nil]
  exact List.perm_middle

/-- **A record that does not come back leaves a bucket that cannot be listed.** -/
theorem all_put_error {t : Table κ ρ} (ht : t.Keyed) {r : ρ} {e : StoreError}
    (hr : t.decodeValue (t.keyOf r) (t.encodeValue r) = .error e) {b : Books} {rs : List ρ}
    (hall : b.all t = .ok rs) : (b.put t r).all t = .error e := by
  obtain ⟨l₁, old, l₂, hsplit, hinsert, -, -⟩ := Rows.exists_insertInto
    (t.encodeKey (t.keyOf r)) (t.encodeValue r) (b.rows t.bucket).ascending
  unfold all at hall ⊢
  rw [hsplit] at hall
  rw [rows_put_self]
  obtain ⟨front, -, hfront, -, -⟩ := decodeRows_append_ok hall
  obtain ⟨rs₁, -, h₁, -, -⟩ := decodeRows_append_ok hfront
  exact (congrArg (decodeRows t) hinsert).trans (decodeRows_between_error ht h₁ hr)

theorem all_of_empty {t : Table κ ρ} {b : Books} (h : b.rows t.bucket = .empty) :
    b.all t = .ok [] := by
  unfold all
  rw [h]
  rfl

theorem all_put_of_bucket {t : Table κ ρ} {u : Table κ' ρ'} (h : t.bucket ≠ u.bucket)
    (b : Books) (r : ρ) : (b.put t r).all u = b.all u :=
  all_congr_rows (rows_put (Ne.symm h) b r)

/-! ## §3. Buckets of records. -/

/-- Every row is that of a record that can be read again. -/
def Holds (b : Books) (t : Table κ ρ) : Prop :=
  ∀ row ∈ (b.rows t.bucket).toList,
    ∃ r, t.Keeps r ∧ row = (t.encodeKey (t.keyOf r), t.encodeValue r)

namespace Holds

variable {t : Table κ ρ} {b b' : Books}

theorem of_empty (h : b.rows t.bucket = .empty) : b.Holds t := by
  unfold Holds
  rw [h]
  exact nofun

theorem congr_rows (h : b.Holds t) (hrows : b'.rows t.bucket = b.rows t.bucket) :
    b'.Holds t := by
  unfold Holds
  rw [hrows]
  exact h

theorem put (h : b.Holds t) {r : ρ} (hr : t.Keeps r) : (b.put t r).Holds t := by
  intro row hrow
  rw [rows_put_self] at hrow
  rcases Rows.mem_insertInto hrow with rfl | hrow
  · exact ⟨r, hr, rfl⟩
  · exact h row hrow

/-- A record that is found stands in its row. -/
theorem find?_eq_ok_iff (h : b.Holds t) (ht : t.Keyed) {r : ρ} :
    b.find? t (t.keyOf r) = .ok (some r)
      ↔ t.Keeps r ∧ (t.encodeKey (t.keyOf r), t.encodeValue r) ∈ (b.rows t.bucket).toList := by
  constructor
  · intro hfind
    obtain ⟨value, hraw, hvalue⟩ := exists_value_of_find? hfind
    have hrow : (t.encodeKey (t.keyOf r), value) ∈ (b.rows t.bucket).toList :=
      Rows.get?_eq_some_iff.mp hraw
    -- the row is that of a record, and this record is the one that is found
    obtain ⟨s, hs, heq⟩ := h _ hrow
    obtain ⟨hkey, rfl⟩ := Prod.mk.inj heq
    rw [ht.encodeKey_inj hkey] at hvalue
    obtain rfl : s = r := Except.ok.inj (Eq.trans (Eq.symm hs) hvalue)
    exact ⟨hs, hrow⟩
  · rintro ⟨hr, hrow⟩
    have hraw : b.raw? t (t.keyOf r) = some (t.encodeValue r) := Rows.get?_eq_some_iff.mpr hrow
    unfold find?
    rw [hraw]
    show (t.decodeValue (t.keyOf r) (t.encodeValue r)).map some = _
    rw [hr]
    rfl

/-- **The records that are listed are those that are found.** -/
theorem all (h : b.Holds t) (ht : t.Keyed) :
    ∃ rs, b.all t = .ok rs ∧ ∀ r, r ∈ rs ↔ b.find? t (t.keyOf r) = .ok (some r) := by
  have hlist : ∀ l : List Row,
      (∀ row ∈ l, ∃ r, t.Keeps r ∧ row = (t.encodeKey (t.keyOf r), t.encodeValue r)) →
      ∃ rs, decodeRows t l = .ok rs
        ∧ ∀ r, r ∈ rs ↔ t.Keeps r ∧ (t.encodeKey (t.keyOf r), t.encodeValue r) ∈ l := by
    intro l hl
    induction l with
    | nil => exact ⟨[], rfl, fun r => ⟨nofun, fun hr => nomatch hr.2⟩⟩
    | cons row l ih =>
      obtain ⟨first, hfirst, rfl⟩ := hl row List.mem_cons_self
      obtain ⟨rs, hrs, hmem⟩ := ih fun row hrow => hl row (List.mem_cons_of_mem _ hrow)
      refine ⟨first :: rs, ?_, fun r => ?_⟩
      · rw [decodeRows_cons, ht.decodeKey_encodeKey, hrs]
        show (t.decodeValue (t.keyOf first) (t.encodeValue first) >>= _) = _
        rw [hfirst]
        rfl
      · rw [List.mem_cons, List.mem_cons, hmem]
        constructor
        · rintro (rfl | ⟨hr, hrow⟩)
          · exact ⟨hfirst, .inl rfl⟩
          · exact ⟨hr, .inr hrow⟩
        · rintro ⟨hr, hrow | hrow⟩
          · -- records with one row are one record
            obtain ⟨hkey, hvalue⟩ := Prod.mk.inj hrow
            unfold Table.Keeps at hr hfirst
            rw [ht.encodeKey_inj hkey, hvalue, hfirst] at hr
            exact .inl (Except.ok.inj hr).symm
          · exact .inr ⟨hr, hrow⟩
  obtain ⟨rs, hrs, hmem⟩ := hlist (b.rows t.bucket).toList h
  exact ⟨rs, hrs, fun r => (hmem r).trans (h.find?_eq_ok_iff ht).symm⟩

end Holds

end Books

end FundTrail.Store
