/-
  FundTrail.Proofs.Store.Canonical
  ────────────────────────────────
  **ONE SPELLING FOR EVERY KEY AND EVERY RECORD.**

  A key has one spelling, and no other bytes are accepted for it.  A record has one
  spelling too, from which it comes back; but it can be read from other bytes as
  well: amounts may have zero bytes in front, the names of a set may stand in any
  order and more than once, and anything may follow the last field.  Whatever such
  bytes say is `Storable`: its lengths have been read from eight bytes each, and so
  they can be written into eight bytes again.

  Main facts: `storable_of_decodeValue` and `spelling_canonical`.
-/
import Mathlib.Data.List.Perm.Basic
import FundTrail.Proofs.Store.Readable

namespace FundTrail.Store

variable {κ ρ : Type}

/-! ## §1. What is accepted as a key is its spelling. -/

namespace Table

theorem toList_of_decodeAddressKey {bucket : Bucket} {raw : Bytes} {a : Address}
    (h : decodeAddressKey bucket raw = .ok a) : a.toList = raw := by
  unfold decodeAddressKey at h
  split at h
  next b hb =>
    obtain rfl := Except.ok.inj h
    exact (FixedBytes.ofList?_eq_some_iff.mp hb).symm
  next => exact nomatch h

theorem toList_of_decodeHashKey {bucket : Bucket} {raw : Bytes} {k : Hash}
    (h : decodeHashKey bucket raw = .ok k) : k.toList = raw := by
  unfold decodeHashKey at h
  split at h
  next b hb =>
    obtain rfl := Except.ok.inj h
    exact (FixedBytes.ofList?_eq_some_iff.mp hb).symm
  next => exact nomatch h

theorem encodePatternKey_of_decodePatternKey {raw : Bytes} {k : PatternKey}
    (h : decodePatternKey raw = .ok k) : encodePatternKey k = raw := by
  unfold decodePatternKey at h
  split at h
  next => exact nomatch h
  next hlen =>
    split at h
    next exchange hread =>
      obtain rfl := Except.ok.inj h
      -- the first twenty bytes are the token, and the rest is the name as it is written
      have htoken : (FixedBytes.ofPrefix (raw.take 20) : Address).toList = raw.take 20 :=
        congrArg FixedBytes.toList
          (ofPrefix_toList (⟨raw.take 20, List.length_take_of_le (Nat.not_lt.mp hlen)⟩ : Address))
      show (FixedBytes.ofPrefix (raw.take 20) : Address).toList ++ Utf8.write exchange = raw
      rw [htoken, ← Utf8.read_eq_ok_iff.mp hread, List.take_append_drop]
    next => exact nomatch h

theorem cursorKey_of_decodeCursorKey {raw : Bytes} {k : Unit} (h : decodeCursorKey raw = .ok k) :
    cursorKey = raw := by
  unfold decodeCursorKey at h
  split at h
  next hraw => exact hraw.symm
  next => exact nomatch h

theorem keyed_exchanges : exchanges.Keyed where
  decodeKey_encodeKey := decodeAddressKey_toList .exchange
  keyOf_decodeValue {key value r} h := by
    change decodeExchange key value = .ok r at h
    unfold decodeExchange at h
    split at h
    next => exact (congrArg Exchange.address (Except.ok.inj h)).symm
    next => exact nomatch h

end Table

theorem Bucket.keyed_layout (bucket : Bucket) : bucket.layout.Keyed := by
  cases bucket with
  | exchange => exact Table.keyed_exchanges
  | account => exact Table.keyed_accounts
  | token => exact Table.keyed_tokens
  | pattern => exact Table.keyed_patterns
  | swap => exact Table.keyed_swaps
  | cursor => exact Table.keyed_cursor

theorem Bucket.encodeKey_of_decodeKey {bucket : Bucket} {raw : Bytes} {key : bucket.Key}
    (h : bucket.layout.decodeKey raw = .ok key) : bucket.layout.encodeKey key = raw := by
  cases bucket with
  | exchange => exact Table.toList_of_decodeAddressKey h
  | account => exact Table.toList_of_decodeAddressKey h
  | token => exact Table.toList_of_decodeAddressKey h
  | pattern => exact Table.encodePatternKey_of_decodePatternKey h
  | swap => exact Table.toList_of_decodeHashKey h
  | cursor => exact Table.cursorKey_of_decodeCursorKey h

/-! ## §2. What can be stored comes back. -/

/-- Every length in the record fits in its eight bytes, and a path leads
somewhere. -/
def Bucket.Storable : (bucket : Bucket) → bucket.Record → Prop
  | .exchange, _ => True
  | .account, a =>
      (∀ name ∈ a.fromExchanges, IsShort name) ∧ a.fromExchanges.toList.length < 2 ^ 64
  | .token, t => IsShort t.symbol
  | .pattern, _ => True
  | .swap, s => s.path ≠ [] ∧ s.path.length < 2 ^ 64
  | .cursor, _ => True

theorem Table.keeps_exchange (e : Exchange) : exchanges.Keeps e := by
  show decodeExchange e.address (Utf8.write e.name) = .ok e
  unfold decodeExchange
  rw [Utf8.read_write]

theorem Bucket.keeps_of_storable {bucket : Bucket} {r : bucket.Record} (h : bucket.Storable r) :
    bucket.layout.Keeps r := by
  cases bucket with
  | exchange => exact Table.keeps_exchange r
  | account => exact Table.keeps_account h.1 h.2
  | token => exact Table.keeps_token h
  | pattern => exact Table.keeps_pattern r
  | swap => exact Table.keeps_swap h.1 h.2
  | cursor => exact Table.keeps_cursor r

/-! ## §3. What has been read can be stored. -/

theorem length_of_readMany {α : Type} {read : Reader α} {n : Nat} {bs rest : Bytes} {xs : List α}
    (h : readMany read n bs = .ok (xs, rest)) : xs.length = n := by
  induction n generalizing bs rest xs with
  | zero =>
    obtain rfl : [] = xs := congrArg Prod.fst (Except.ok.inj h)
    rfl
  | succ n ih =>
    rw [readMany] at h
    obtain ⟨x, mid, -, h⟩ := Reader.bind_eq_ok h
    obtain ⟨xs', mid', hxs', h⟩ := Reader.bind_eq_ok h
    obtain rfl : x :: xs' = xs := congrArg Prod.fst (Except.ok.inj h)
    rw [List.length_cons, ih hxs']

/-- A set has no more members than it has been given. -/
theorem NameSet.length_ofList_le (names : List String) :
    (NameSet.ofList names).toList.length ≤ names.length :=
  (List.subperm_of_subset (NameSet.ofList names).nodup fun _ h => NameSet.mem_ofList.mp h).length_le

theorem length_of_readNames {bs rest : Bytes} {names : NameSet}
    (h : readNames bs = .ok (names, rest)) : names.toList.length < 2 ^ 64 := by
  unfold readNames at h
  obtain ⟨n, mid, -, h⟩ := Reader.bind_eq_ok h
  obtain ⟨list, mid', hlist, h⟩ := Reader.bind_eq_ok h
  obtain rfl : NameSet.ofList list = names := congrArg Prod.fst (Except.ok.inj h)
  calc (NameSet.ofList list).toList.length
      ≤ list.length := NameSet.length_ofList_le list
    _ = n.toNat := length_of_readMany hlist
    _ < 2 ^ 64 := n.toNat_lt

theorem path_of_readPath {bs rest : Bytes} {path : List Address}
    (h : readPath bs = .ok (path, rest)) : path ≠ [] ∧ path.length < 2 ^ 64 := by
  unfold readPath at h
  obtain ⟨n, mid, -, h⟩ := Reader.bind_eq_ok h
  obtain ⟨list, mid', hlist, h⟩ := Reader.bind_eq_ok h
  split at h
  next => exact nomatch h
  next hne =>
    obtain rfl : list = path := congrArg Prod.fst (Except.ok.inj h)
    refine ⟨by simpa using hne, ?_⟩
    rw [length_of_readMany hlist]
    exact n.toNat_lt

/-- **What has been read can be stored,** however leniently it has been read. -/
theorem Bucket.storable_of_decodeValue {bucket : Bucket} {key : bucket.Key} {raw : Bytes}
    {r : bucket.Record} (h : bucket.layout.decodeValue key raw = .ok r) : bucket.Storable r := by
  cases bucket with
  | exchange => trivial
  | account =>
    obtain ⟨bs, rest, hnames⟩ := Table.exists_readNames_of_decodeValue h
    exact ⟨isShort_of_readNames hnames, length_of_readNames hnames⟩
  | token => exact Table.isShort_of_decodeValue_tokens h
  | pattern => trivial
  | swap =>
    obtain ⟨rest, hread⟩ := Table.decode_eq_ok h
    unfold readSwap at hread
    obtain ⟨_, _, -, hread⟩ := Reader.bind_eq_ok hread
    obtain ⟨_, _, -, hread⟩ := Reader.bind_eq_ok hread
    obtain ⟨path, _, hpath, hread⟩ := Reader.bind_eq_ok hread
    obtain ⟨_, _, -, hread⟩ := Reader.bind_eq_ok hread
    obtain ⟨_, _, -, hread⟩ := Reader.bind_eq_ok hread
    obtain ⟨_, _, -, hread⟩ := Reader.bind_eq_ok hread
    obtain rfl : _ = r := congrArg Prod.fst (Except.ok.inj hread)
    exact path_of_readPath hpath
  | cursor => trivial

/-! ## §4. One spelling each. -/

/-- How a bucket spells its keys and records: each has one spelling and comes back
from it, no key is accepted in another one, and what is read from another spelling
of a record has the same one. -/
structure Bucket.Canonical (bucket : Bucket) : Prop where
  decodeKey_encodeKey : ∀ key, bucket.layout.decodeKey (bucket.layout.encodeKey key) = .ok key
  encodeKey_decodeKey : ∀ raw key,
    bucket.layout.decodeKey raw = .ok key → bucket.layout.encodeKey key = raw
  encodeKey_injective : ∀ key key',
    bucket.layout.encodeKey key = bucket.layout.encodeKey key' → key = key'
  decodeValue_encodeValue : ∀ r, bucket.Storable r →
    bucket.layout.decodeValue (bucket.layout.keyOf r) (bucket.layout.encodeValue r) = .ok r
  encodeValue_ne : ∀ r s, bucket.Storable r → bucket.Storable s →
    bucket.layout.keyOf r = bucket.layout.keyOf s → r ≠ s →
    bucket.layout.encodeValue r ≠ bucket.layout.encodeValue s
  decodeValue_again : ∀ key raw r, bucket.layout.decodeValue key raw = .ok r →
    bucket.layout.keyOf r = key ∧ bucket.Storable r
      ∧ bucket.layout.decodeValue key (bucket.layout.encodeValue r) = .ok r

/-- Records with one key and one value are one record. -/
theorem Table.eq_of_encodeValue_eq {t : Table κ ρ} {r s : ρ} (hr : t.Keeps r) (hs : t.Keeps s)
    (hkey : t.keyOf r = t.keyOf s) (hvalue : t.encodeValue r = t.encodeValue s) : r = s := by
  have hread : (.ok r : Except StoreError ρ) = .ok s :=
    calc .ok r = t.decodeValue (t.keyOf r) (t.encodeValue r) := hr.symm
      _ = t.decodeValue (t.keyOf s) (t.encodeValue s) := by rw [hkey, hvalue]
      _ = .ok s := hs
  exact Except.ok.inj hread

/-- **Each bucket has one spelling for every key and every record,** and the value of
an account does not tell in which order, and how often, its exchanges were recorded. -/
theorem spelling_canonical :
    (∀ bucket : Bucket, bucket.Canonical)
      ∧ ∀ (a : Account) (names names' : List String), (∀ name, name ∈ names ↔ name ∈ names') →
        writeAccount { a with fromExchanges := .ofList names }
          = writeAccount { a with fromExchanges := .ofList names' } := by
  refine ⟨fun bucket => ?_, fun a names names' hnames => ?_⟩
  · exact {
      decodeKey_encodeKey := bucket.keyed_layout.decodeKey_encodeKey
      encodeKey_decodeKey := fun _ _ h => Bucket.encodeKey_of_decodeKey h
      encodeKey_injective := fun _ _ h => bucket.keyed_layout.encodeKey_inj h
      decodeValue_encodeValue := fun _ h => Bucket.keeps_of_storable h
      encodeValue_ne := fun _ _ hr hs hkey hne hvalue =>
        hne (Table.eq_of_encodeValue_eq (Bucket.keeps_of_storable hr)
          (Bucket.keeps_of_storable hs) hkey hvalue)
      decodeValue_again := fun key raw r h => by
        have hkey : bucket.layout.keyOf r = key := bucket.keyed_layout.keyOf_decodeValue h
        have hstorable := Bucket.storable_of_decodeValue h
        have hkeeps := Bucket.keeps_of_storable hstorable
        unfold Table.Keeps at hkeeps
        rw [hkey] at hkeeps
        exact ⟨hkey, hstorable, hkeeps⟩ }
  · have hset : NameSet.ofList names = NameSet.ofList names' := by
      refine NameSet.ext_mem fun name => ?_
      rw [NameSet.mem_ofList, NameSet.mem_ofList, hnames]
    rw [hset]

/-- The value of an account as nobody writes it: a zero byte in front of an amount,
a set that names one of its two members twice and not in order, and more bytes behind
the last field. -/
def laxAccount : Bytes :=
  writeBlob [0, 7] ++ writeBlob []
    ++ (writeCount 3 ++ writeText "b" ++ writeText "a" ++ writeText "b") ++ [1, 2]

/-- It is read, and what it says is then written in the one spelling. -/
theorem spelling_canonical_laxAccount : ∃ a,
    Table.accounts.decodeValue .zero laxAccount = .ok a ∧ writeAccount a ≠ laxAccount
      ∧ Table.accounts.decodeValue .zero (writeAccount a) = .ok a
      ∧ writeAccount a = writeAccount { a with fromExchanges := .ofList ["a", "b"] } := by
  have hread : Table.accounts.decodeValue .zero laxAccount
      = .ok ⟨.zero, .clamp 7, 0, .ofList ["b", "a", "b"]⟩ := by rfl
  refine ⟨_, hread, by decide +kernel, ?_, ?_⟩
  · exact ((spelling_canonical.1 .account).decodeValue_again _ _ _ hread).2.2
  · refine spelling_canonical.2 ⟨.zero, .clamp 7, 0, .empty⟩ ["b", "a", "b"] ["a", "b"]
      fun name => ?_
    simp only [List.mem_cons, List.not_mem_nil, or_false]
    exact ⟨fun h => h.elim .inr id, .inr⟩

end FundTrail.Store
