/-
  FundTrail.Proofs.Store.Records
  ──────────────────────────────
  **RECORDS BEHIND THEIR KEYS.**

  What a table does with one record, and what the books do with it: a key comes
  back from its bytes, the record behind a key is named by it, and a record that
  is put where its value can be read again is found there.

  A put changes one row of one bucket.  All that is said about look-ups after a
  put follows from `raw?_put`, which says so.

  Main facts: `find?_put_self`, `find?_put_of_ne` and `find?_put_of_bucket`; and
  `put_comm`, that puts into two buckets may change places.
-/
import FundTrail.Proofs.Store.Fields
import FundTrail.Store.Books

namespace FundTrail.Store

variable {κ κ' ρ ρ' : Type}

/-! ## §1. Tables. -/

namespace Table

/-- Keys come back from their bytes, and a record is named by the key it stands
under. -/
structure Keyed (t : Table κ ρ) : Prop where
  decodeKey_encodeKey : ∀ key, t.decodeKey (t.encodeKey key) = .ok key
  keyOf_decodeValue : ∀ {key value r}, t.decodeValue key value = .ok r → t.keyOf r = key

/-- The record comes back from its value. -/
def Keeps (t : Table κ ρ) (r : ρ) : Prop :=
  t.decodeValue (t.keyOf r) (t.encodeValue r) = .ok r

theorem Keyed.encodeKey_inj {t : Table κ ρ} (h : t.Keyed) {j k : κ}
    (he : t.encodeKey j = t.encodeKey k) : j = k := by
  have hj := h.decodeKey_encodeKey j
  rw [he, h.decodeKey_encodeKey k] at hj
  injection hj with hj
  exact hj.symm

/-- What is read from a value was taken off its front. -/
theorem decode_eq_ok {α : Type} {read : Reader α} {bs : Bytes} {x : α}
    (h : read.decode bs = .ok x) : ∃ rest, read bs = .ok (x, rest) := by
  unfold Reader.decode at h
  split at h
  next y rest hy =>
    injection h with h
    subst h
    exact ⟨rest, hy⟩
  next => exact nomatch h

theorem decodeAddressKey_toList (bucket : Bucket) (a : Address) :
    decodeAddressKey bucket a.toList = .ok a := by
  unfold decodeAddressKey
  rw [FixedBytes.ofList?_toList]

theorem keyed_accounts : accounts.Keyed where
  decodeKey_encodeKey := decodeAddressKey_toList .account
  keyOf_decodeValue {key value r} h := by
    obtain ⟨rest, h⟩ := decode_eq_ok h
    unfold readAccount at h
    obtain ⟨_, _, -, h⟩ := Reader.bind_eq_ok h
    obtain ⟨_, _, -, h⟩ := Reader.bind_eq_ok h
    obtain ⟨_, _, -, h⟩ := Reader.bind_eq_ok h
    injection h with h
    injection h with h _
    subst h
    rfl

theorem keyed_tokens : tokens.Keyed where
  decodeKey_encodeKey := decodeAddressKey_toList .token
  keyOf_decodeValue {key value r} h := by
    obtain ⟨rest, h⟩ := decode_eq_ok h
    unfold readToken at h
    obtain ⟨_, _, -, h⟩ := Reader.bind_eq_ok h
    obtain ⟨_, _, -, h⟩ := Reader.bind_eq_ok h
    obtain ⟨_, _, -, h⟩ := Reader.bind_eq_ok h
    obtain ⟨_, _, -, h⟩ := Reader.bind_eq_ok h
    obtain ⟨_, _, -, h⟩ := Reader.bind_eq_ok h
    injection h with h
    injection h with h _
    subst h
    rfl

theorem decodePatternKey_encodePatternKey (key : PatternKey) :
    decodePatternKey (encodePatternKey key) = .ok key := by
  have hlen := key.token.length_toList
  unfold decodePatternKey encodePatternKey
  rw [if_neg (by rw [List.length_append, hlen]; omega), List.drop_left' hlen, List.take_left' hlen,
    Utf8.read_write, ofPrefix_toList]

theorem keyed_patterns : patterns.Keyed where
  decodeKey_encodeKey := decodePatternKey_encodePatternKey
  keyOf_decodeValue {key value r} h := by
    obtain ⟨rest, h⟩ := decode_eq_ok h
    unfold readPattern at h
    obtain ⟨_, _, -, h⟩ := Reader.bind_eq_ok h
    obtain ⟨_, _, -, h⟩ := Reader.bind_eq_ok h
    injection h with h
    injection h with h _
    subst h
    rfl

theorem keyed_swaps : swaps.Keyed where
  decodeKey_encodeKey h := by
    show decodeHashKey .swap h.toList = .ok h
    unfold decodeHashKey
    rw [FixedBytes.ofList?_toList]
  keyOf_decodeValue {key value r} h := by
    obtain ⟨rest, h⟩ := decode_eq_ok h
    unfold readSwap at h
    obtain ⟨_, _, -, h⟩ := Reader.bind_eq_ok h
    obtain ⟨_, _, -, h⟩ := Reader.bind_eq_ok h
    obtain ⟨_, _, -, h⟩ := Reader.bind_eq_ok h
    obtain ⟨_, _, -, h⟩ := Reader.bind_eq_ok h
    obtain ⟨_, _, -, h⟩ := Reader.bind_eq_ok h
    obtain ⟨_, _, -, h⟩ := Reader.bind_eq_ok h
    injection h with h
    injection h with h _
    subst h
    rfl

@[simp] theorem decodeValue_accounts (a : Address) (bs : Bytes) :
    accounts.decodeValue a bs = (readAccount a).decode bs := rfl

@[simp] theorem encodeValue_accounts (a : Account) : accounts.encodeValue a = writeAccount a :=
  rfl

@[simp] theorem keyOf_accounts (a : Account) : accounts.keyOf a = a.address := rfl

@[simp] theorem decodeValue_tokens (a : Address) (bs : Bytes) :
    tokens.decodeValue a bs = (readToken a).decode bs := rfl

@[simp] theorem encodeValue_tokens (t : Token) : tokens.encodeValue t = writeToken t := rfl

@[simp] theorem keyOf_tokens (t : Token) : tokens.keyOf t = t.address := rfl

@[simp] theorem decodeValue_patterns (key : PatternKey) (bs : Bytes) :
    patterns.decodeValue key bs = (readPattern key).decode bs := rfl

@[simp] theorem encodeValue_patterns (p : Pattern) : patterns.encodeValue p = writePattern p := rfl

@[simp] theorem keyOf_patterns (p : Pattern) : patterns.keyOf p = p.key := rfl

@[simp] theorem decodeValue_swaps (h : Hash) (bs : Bytes) :
    swaps.decodeValue h bs = (readSwap h).decode bs := rfl

@[simp] theorem encodeValue_swaps (s : Swap) : swaps.encodeValue s = writeSwap s := rfl

@[simp] theorem keyOf_swaps (s : Swap) : swaps.keyOf s = s.txHash := rfl

@[simp] theorem decodeValue_cursor (u : Unit) (bs : Bytes) :
    cursor.decodeValue u bs = readCursor.decode bs := rfl

@[simp] theorem encodeValue_cursor (c : Cursor) : cursor.encodeValue c = writeCursor c := rfl

/-- An account with short names, no more of them than a count can tell. -/
theorem reads_account {a : Account} (h : ∀ s ∈ a.fromExchanges, IsShort s)
    (hlen : a.fromExchanges.toList.length < 2 ^ 64) :
    Reads (readAccount a.address) (writeAccount a) a := by
  unfold readAccount writeAccount
  simp only [List.append_assoc]
  exact (reads_amount _).bind <| (reads_amount _).bind (reads_names h hlen).last

theorem keeps_account {a : Account} (h : ∀ s ∈ a.fromExchanges, IsShort s)
    (hlen : a.fromExchanges.toList.length < 2 ^ 64) : accounts.Keeps a := by
  rw [Keeps, decodeValue_accounts, encodeValue_accounts, keyOf_accounts]
  exact (reads_account h hlen).decode

/-- A token with a short symbol. -/
theorem reads_token {t : Token} (h : IsShort t.symbol) :
    Reads (readToken t.address) (writeToken t) t := by
  unfold readToken writeToken
  simp only [List.append_assoc]
  exact (reads_text h).bind <| (reads_byte _).bind <| (reads_amount _).bind <|
    (reads_amount _).bind (reads_count _).last

theorem keeps_token {t : Token} (h : IsShort t.symbol) : tokens.Keeps t := by
  rw [Keeps, decodeValue_tokens, encodeValue_tokens, keyOf_tokens]
  exact (reads_token h).decode

theorem reads_pattern (p : Pattern) : Reads (readPattern p.key) (writePattern p) p := by
  unfold readPattern writePattern
  exact (reads_amount _).bind (reads_count _).last

theorem keeps_pattern (p : Pattern) : patterns.Keeps p := by
  rw [Keeps, decodeValue_patterns, encodeValue_patterns, keyOf_patterns]
  exact (reads_pattern p).decode

/-- A swap with a path that is neither empty nor too long. -/
theorem reads_swap {s : Swap} (hne : s.path ≠ []) (hlen : s.path.length < 2 ^ 64) :
    Reads (readSwap s.txHash) (writeSwap s) s := by
  unfold readSwap writeSwap
  simp only [List.append_assoc]
  exact (reads_address _).bind <| (reads_address _).bind <| (reads_path hne hlen).bind <|
    (reads_address _).bind <| (reads_amount _).bind (reads_amount _).last

theorem keeps_swap {s : Swap} (hne : s.path ≠ []) (hlen : s.path.length < 2 ^ 64) :
    swaps.Keeps s := by
  rw [Keeps, decodeValue_swaps, encodeValue_swaps, keyOf_swaps]
  exact (reads_swap hne hlen).decode

theorem reads_cursor (c : Cursor) : Reads readCursor (writeCursor c) c := by
  unfold readCursor writeCursor
  simp only [List.append_assoc]
  exact (reads_count _).bind <| (reads_hash _).bind (reads_seconds _).last

theorem keeps_cursor (c : Cursor) : cursor.Keeps c := by
  rw [Keeps, decodeValue_cursor, encodeValue_cursor]
  exact (reads_cursor c).decode

/-- The names of an account that has been read were read as a set. -/
theorem exists_readNames_of_decodeValue {address : Address} {value : Bytes} {a : Account}
    (h : accounts.decodeValue address value = .ok a) :
    ∃ bs rest, readNames bs = .ok (a.fromExchanges, rest) := by
  obtain ⟨rest, hread⟩ := decode_eq_ok h
  unfold readAccount at hread
  obtain ⟨_, _, -, hread⟩ := Reader.bind_eq_ok hread
  obtain ⟨_, bs, -, hread⟩ := Reader.bind_eq_ok hread
  obtain ⟨names, left, hnames, hread⟩ := Reader.bind_eq_ok hread
  obtain rfl : _ = a := congrArg Prod.fst (Except.ok.inj hread)
  exact ⟨bs, left, hnames⟩

theorem isShort_of_decodeValue_tokens {address : Address} {value : Bytes} {t : Token}
    (h : tokens.decodeValue address value = .ok t) : IsShort t.symbol := by
  obtain ⟨rest, hread⟩ := decode_eq_ok h
  unfold readToken at hread
  obtain ⟨symbol, _, hsymbol, hread⟩ := Reader.bind_eq_ok hread
  obtain ⟨_, _, -, hread⟩ := Reader.bind_eq_ok hread
  obtain ⟨_, _, -, hread⟩ := Reader.bind_eq_ok hread
  obtain ⟨_, _, -, hread⟩ := Reader.bind_eq_ok hread
  obtain ⟨_, _, -, hread⟩ := Reader.bind_eq_ok hread
  obtain rfl : _ = t := congrArg Prod.fst (Except.ok.inj hread)
  exact isShort_of_readText hsymbol

end Table

/-! ## §2. Look-ups after a put. -/

namespace Books

/-- A put changes the row of its record, and no other. -/
theorem raw?_put (b : Books) (t : Table κ ρ) (r : ρ) (u : Table κ' ρ') (key : κ') :
    (b.put t r).raw? u key
      = if t.bucket = u.bucket ∧ t.encodeKey (t.keyOf r) = u.encodeKey key
        then some (t.encodeValue r) else b.raw? u key := by
  unfold raw? put putRaw
  rw [rows_setRows]
  by_cases hb : t.bucket = u.bucket
  -- in the bucket of the record the key decides, elsewhere nothing changes
  · rw [if_pos hb, Rows.get?_insert, hb]
    by_cases hk : t.encodeKey (t.keyOf r) = u.encodeKey key
    · rw [if_pos hk, if_pos ⟨rfl, hk⟩]
    · rw [if_neg hk, if_neg (fun h => hk h.2)]
  · rw [if_neg hb, if_neg (fun h => hb h.1)]

theorem raw?_put_of_bucket {t : Table κ ρ} {u : Table κ' ρ'} (h : t.bucket ≠ u.bucket)
    (b : Books) (r : ρ) (key : κ') : (b.put t r).raw? u key = b.raw? u key := by
  rw [raw?_put, if_neg (fun hk => h hk.1)]

theorem raw?_put_of_ne {t : Table κ ρ} (ht : t.Keyed) {r : ρ} {key : κ} (h : key ≠ t.keyOf r)
    (b : Books) : (b.put t r).raw? t key = b.raw? t key := by
  rw [raw?_put, if_neg (fun hk => h (ht.encodeKey_inj hk.2).symm)]

theorem findOr_eq (b : Books) (t : Table κ ρ) (key : κ) (fallback : ρ) :
    b.findOr t key fallback = (b.find? t key).map fun found => found.getD fallback := by
  unfold findOr find?
  cases b.raw? t key with
  | none => rfl
  | some value =>
    show t.decodeValue key value = ((t.decodeValue key value).map some).map _
    cases t.decodeValue key value <;> rfl

/-- What is found depends on the row alone. -/
theorem find?_congr {b c : Books} {t : Table κ ρ} {key : κ}
    (h : b.raw? t key = c.raw? t key) : b.find? t key = c.find? t key := by
  unfold find?
  rw [h]

theorem find?_put_of_bucket {t : Table κ ρ} {u : Table κ' ρ'} (h : t.bucket ≠ u.bucket)
    (b : Books) (r : ρ) (key : κ') : (b.put t r).find? u key = b.find? u key :=
  find?_congr (raw?_put_of_bucket h b r key)

theorem find?_put_of_ne {t : Table κ ρ} (ht : t.Keyed) {r : ρ} {key : κ} (h : key ≠ t.keyOf r)
    (b : Books) : (b.put t r).find? t key = b.find? t key :=
  find?_congr (raw?_put_of_ne ht h b)

/-- A record that can be read again is found where it was put. -/
theorem find?_put_self {t : Table κ ρ} {r : ρ} (h : t.Keeps r) (b : Books) :
    (b.put t r).find? t (t.keyOf r) = .ok (some r) := by
  unfold find?
  rw [raw?_put_self]
  show (t.decodeValue (t.keyOf r) (t.encodeValue r)).map some = _
  rw [h]
  rfl

/-- What is found has been read from a value. -/
theorem exists_value_of_find? {t : Table κ ρ} {b : Books} {key : κ} {r : ρ}
    (h : b.find? t key = .ok (some r)) :
    ∃ value, b.raw? t key = some value ∧ t.decodeValue key value = .ok r := by
  unfold find? at h
  -- there is a row, and its value can be read
  cases hr : b.raw? t key with
  | none =>
    rw [hr] at h
    exact nomatch h
  | some value =>
    rw [hr] at h
    cases hv : t.decodeValue key value with
    | error e =>
      simp only [hv] at h
      exact nomatch h
    | ok found =>
      simp only [hv] at h
      obtain rfl : found = r := Option.some.inj (Except.ok.inj h)
      exact ⟨value, rfl, hv⟩

/-- What is found under a key is named by it. -/
theorem keyOf_find? {t : Table κ ρ} (ht : t.Keyed) {b : Books} {key : κ} {r : ρ}
    (h : b.find? t key = .ok (some r)) : t.keyOf r = key := by
  obtain ⟨value, -, hv⟩ := exists_value_of_find? h
  exact ht.keyOf_decodeValue hv

/-- There is one record under a key. -/
theorem find?_unique {t : Table κ ρ} {b : Books} {key : κ} {r s : ρ}
    (hr : b.find? t key = .ok (some r)) (hs : b.find? t key = .ok (some s)) : r = s :=
  Option.some.inj (Except.ok.inj (hr.symm.trans hs))

/-- What is found, or the fallback where nothing is. -/
theorem findOr_eq_ok {t : Table κ ρ} {b : Books} {key : κ} {fallback r : ρ}
    (h : b.findOr t key fallback = .ok r) :
    (b.find? t key = .ok none ∧ r = fallback) ∨ b.find? t key = .ok (some r) := by
  rw [findOr_eq] at h
  cases hfind : b.find? t key with
  | error e =>
    rw [hfind] at h
    exact nomatch h
  | ok found =>
    rw [hfind] at h
    obtain rfl : found.getD fallback = r := Except.ok.inj h
    cases found with
    | none => exact .inl ⟨rfl, rfl⟩
    | some r => exact .inr rfl

/-- The symbol of a token that is found is short: it has been read. -/
theorem isShort_of_find?_tokens {b : Books} {token : Address} {row : Token}
    (h : b.find? .tokens token = .ok (some row)) : IsShort row.symbol := by
  obtain ⟨value, -, hv⟩ := exists_value_of_find? h
  exact Table.isShort_of_decodeValue_tokens hv

theorem isShort_of_find?_accounts {b : Books} {address : Address} {a : Account}
    (h : b.find? .accounts address = .ok (some a)) : ∀ s ∈ a.fromExchanges, IsShort s := by
  obtain ⟨value, -, hv⟩ := exists_value_of_find? h
  obtain ⟨before, rest, hnames⟩ := Table.exists_readNames_of_decodeValue hv
  exact isShort_of_readNames hnames

/-- The cursor is found once it has been put. -/
theorem cursor?_put (b : Books) (c : Cursor) : (b.put .cursor c).cursor? = .ok (some c) :=
  find?_put_self (Table.keeps_cursor c) b

/-! ## §3. Rows after a put. -/

theorem rows_put {t : Table κ ρ} {bucket : Bucket} (h : bucket ≠ t.bucket) (b : Books) (r : ρ) :
    (b.put t r).rows bucket = b.rows bucket := by
  unfold put putRaw
  rw [rows_setRows, if_neg (Ne.symm h)]

theorem rows_put_self (t : Table κ ρ) (b : Books) (r : ρ) :
    (b.put t r).rows t.bucket
      = (b.rows t.bucket).insert (t.encodeKey (t.keyOf r)) (t.encodeValue r) := by
  unfold put putRaw
  rw [rows_setRows, if_pos rfl]

/-- What is found in a bucket depends on its rows alone. -/
theorem find?_congr_rows {b c : Books} {t : Table κ ρ} (h : b.rows t.bucket = c.rows t.bucket)
    (key : κ) : b.find? t key = c.find? t key := by
  unfold find? raw?
  rw [h]

theorem has_congr_rows {b c : Books} {t : Table κ ρ} (h : b.rows t.bucket = c.rows t.bucket)
    (key : κ) : b.has t key = c.has t key := by
  unfold has raw?
  rw [h]

theorem all_congr_rows {b c : Books} {t : Table κ ρ} (h : b.rows t.bucket = c.rows t.bucket) :
    b.all t = c.all t := by
  unfold all
  rw [h]

section

variable {t : Table κ ρ} {u : Table κ' ρ'}

theorem putRaw_comm {bucket other : Bucket} (h : bucket ≠ other) (b : Books)
    (key value key' value' : Bytes) :
    (b.putRaw bucket key value).putRaw other key' value'
      = (b.putRaw other key' value').putRaw bucket key value := by
  apply ext_rows
  intro seen
  unfold putRaw
  simp only [rows_setRows, if_neg h, if_neg h.symm]
  -- either bucket sees one of the writes, and the others see none
  by_cases hb : bucket = seen
  · have ho : other ≠ seen := fun ho => h (hb.trans ho.symm)
    rw [if_neg ho, if_pos hb, if_pos hb]
  · rw [if_neg hb, if_neg hb]

theorem put_comm (h : t.bucket ≠ u.bucket) (b : Books) (r : ρ) (s : ρ') :
    (b.put t r).put u s = (b.put u s).put t r :=
  putRaw_comm h b _ _ _ _

/-- Of two records with one key only the second stays. -/
theorem put_put {r s : ρ} (h : t.keyOf r = t.keyOf s) (b : Books) :
    (b.put t r).put t s = b.put t s := by
  apply ext_rows
  intro bucket
  by_cases ht : bucket = t.bucket
  · subst ht
    rw [rows_put_self, rows_put_self, rows_put_self, h]
    -- rows are what is found in them, and under the key that is the second value
    apply Rows.ext_get?
    intro k
    rw [Rows.get?_insert, Rows.get?_insert, Rows.get?_insert]
    split <;> rfl
  · rw [rows_put ht, rows_put ht, rows_put ht]

theorem findOr_put_of_bucket (h : u.bucket ≠ t.bucket) (b : Books) (s : ρ') (key : κ)
    (fallback : ρ) : (b.put u s).findOr t key fallback = b.findOr t key fallback := by
  rw [findOr_eq, findOr_eq, find?_put_of_bucket h]

theorem has_put_of_bucket (h : u.bucket ≠ t.bucket) (b : Books) (s : ρ') (key : κ) :
    (b.put u s).has t key = b.has t key := by
  unfold has
  rw [raw?_put_of_bucket h]

end

theorem has_put [DecidableEq κ] {t : Table κ ρ} (ht : t.Keyed)
    (b : Books) (r : ρ) (key : κ) :
    (b.put t r).has t key = (decide (key = t.keyOf r) || b.has t key) := by
  unfold has
  by_cases hkey : key = t.keyOf r
  · rw [hkey, raw?_put_self, decide_eq_true rfl]
    rfl
  · rw [raw?_put_of_ne ht hkey, decide_eq_false hkey, Bool.false_or]

end Books

end FundTrail.Store
