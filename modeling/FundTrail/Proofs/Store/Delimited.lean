/-
  FundTrail.Proofs.Store.Delimited
  ────────────────────────────────
  **A VALUE SAYS WHERE IT ENDS.**

  Every field has a fixed length, or its length stands in front of it.  So what
  follows a value is never looked at, and a value that has been cut off is never
  taken for another one: wherever the cut is, inside a length, between two names of
  a set or in the last amount, the input ends while the reader still needs bytes.

  `Needs read bs` says that the reader needs all of the bytes `bs`, and finds the
  end of the input if any are missing.  Like `Reads` it composes along the reader's
  own sequence (`Needs.bind`): a cut falls into the first field, or the first field
  is read and the cut falls into the rest.

  Main fact: `values_self_delimiting`.
-/
import FundTrail.Proofs.Store.Canonical

namespace FundTrail.Store

/-! ## §1. Readers that need all their bytes. -/

/-- The input ends inside the value. -/
def ValueFault.IsEnd (fault : ValueFault) : Prop := fault = .endOfInput ∨ fault = .endOfText

/-- Wherever the bytes `bs` are cut off, `read` finds the end of the input. -/
def Needs {α : Type} (read : Reader α) (bs : Bytes) : Prop :=
  ∀ n < bs.length, ∃ fault, read (bs.take n) = .error fault ∧ fault.IsEnd

namespace Needs

variable {α β : Type} {read : Reader α} {bs : Bytes}

/-- What comes after a field needs nothing of it. -/
theorem first (h : Needs read bs) (next : α → Reader β) : Needs (read >>= next) bs := by
  intro n hn
  obtain ⟨fault, hread, hend⟩ := h n hn
  exact ⟨fault, Reader.bind_error hread, hend⟩

/-- **Two fields, one behind the other.** -/
theorem bind {next : α → Reader β} {cs : Bytes} {x : α} (h : Needs read bs)
    (hx : Reads read bs x) (g : Needs (next x) cs) : Needs (read >>= next) (bs ++ cs) := by
  intro n hn
  rw [List.length_append] at hn
  by_cases hcut : n < bs.length
  -- the cut is in the first field
  · rw [List.take_append_of_le_length (Nat.le_of_lt hcut)]
    exact h.first next n hcut
  -- the first field is whole, and the cut is in the second
  · have hle : bs.length ≤ n := Nat.le_of_not_lt hcut
    obtain ⟨fault, hread, hend⟩ := g (n - bs.length) (by omega)
    refine ⟨fault, ?_, hend⟩
    rw [List.take_append, List.take_of_length_le hle, Reader.bind_ok (hx _)]
    exact hread

end Needs

/-! ## §2. Fields. -/

theorem needs_bytes {fault : ValueFault} (hend : fault.IsEnd) {bs : Bytes} {n : Nat}
    (h : bs.length = n) : Needs (readBytes fault n) bs := by
  intro m hm
  refine ⟨fault, ?_, hend⟩
  unfold readBytes
  rw [if_neg (by rw [List.length_take]; omega)]

theorem needs_byte (b : UInt8) : Needs readByte [b] := by
  intro n hn
  obtain rfl : n = 0 := by simpa using hn
  exact ⟨.endOfInput, rfl, .inl rfl⟩

theorem needs_count (n : Nat) : Needs readCount (writeCount n) :=
  (needs_bytes (.inl rfl) (length_littleEndian 8 n)).first _

/-- The length in front says how many bytes are needed. -/
theorem needs_counted {fault : ValueFault} (hend : fault.IsEnd) {bs : Bytes}
    (h : bs.length < 2 ^ 64) :
    Needs (readCount >>= fun n => readBytes fault n.toNat) (writeBlob bs) :=
  (needs_count bs.length).bind (reads_length h)
    (needs_bytes hend (Word.toNat_lowBits_of_lt h).symm)

theorem needs_amount (a : Amount) : Needs readAmount (writeAmount a) := by
  have hlen : (encodeAmount a).length < 2 ^ 64 := by
    have := length_encodeAmount_le a
    omega
  exact (needs_counted (.inl rfl) hlen).first _

theorem needs_text {s : String} (h : IsShort s) : Needs readText (writeText s) :=
  (needs_count _).bind (reads_length h)
    ((needs_bytes (.inr rfl) (Word.toNat_lowBits_of_lt h).symm).first _)

theorem needs_address (a : Address) : Needs readAddress (writeAddress a) := by
  have hlen : a.toList.length < 2 ^ 64 := by rw [a.length_toList]; decide
  exact (needs_counted (.inl rfl) hlen).first _

theorem needs_bareAddress (a : Address) : Needs readBareAddress a.toList :=
  (needs_bytes (.inl rfl) a.length_toList).first _

/-- A list of known length needs all its items: the one with the cut in it, after
those in front of it have been read. -/
theorem needs_many {α : Type} {read : Reader α} {write : α → Bytes} {xs : List α}
    (h : ∀ x ∈ xs, Needs read (write x)) (hx : ∀ x ∈ xs, Reads read (write x) x) :
    Needs (readMany read xs.length) (xs.flatMap write) := by
  induction xs with
  | nil => exact nofun
  | cons x xs ih =>
    have hrest : Needs (readMany read xs.length) (xs.flatMap write) :=
      ih (fun y hy => h y (List.mem_cons_of_mem _ hy)) fun y hy => hx y (List.mem_cons_of_mem _ hy)
    rw [List.flatMap_cons]
    exact (h x List.mem_cons_self).bind (hx x List.mem_cons_self) (hrest.first _)

/-- A list behind its length. -/
theorem needs_countedMany {α β : Type} {read : Reader α} {write : α → Bytes} {xs : List α}
    (hlen : xs.length < 2 ^ 64) (h : ∀ x ∈ xs, Needs read (write x))
    (hx : ∀ x ∈ xs, Reads read (write x) x) (next : List α → Reader β) :
    Needs (readCount >>= fun n => readMany read n.toNat >>= next)
      (writeCount xs.length ++ xs.flatMap write) := by
  refine (needs_count xs.length).bind (reads_length hlen) ?_
  rw [Word.toNat_lowBits_of_lt hlen]
  exact (needs_many h hx).first next

theorem needs_path {path : List Address} (hlen : path.length < 2 ^ 64) :
    Needs readPath (writePath path) :=
  needs_countedMany hlen (fun a _ => needs_bareAddress a) (fun a _ => reads_bareAddress a) _

theorem needs_names {names : NameSet} (h : ∀ s ∈ names, IsShort s)
    (hlen : names.toList.length < 2 ^ 64) : Needs readNames (writeNames names) :=
  needs_countedMany hlen (fun s hs => needs_text (h s hs)) (fun s hs => reads_text (h s hs)) _

theorem needs_hash (h : Hash) : Needs readHash (writeText h.text) :=
  (needs_text (isShort_text h)).first _

theorem needs_seconds (t : Int64) : Needs readSeconds (writeSeconds t) :=
  (needs_count t.toUInt64.toNat).first _

/-! ## §3. Values. -/

theorem needs_account (address : Address) {a : Account} (h : ∀ s ∈ a.fromExchanges, IsShort s)
    (hlen : a.fromExchanges.toList.length < 2 ^ 64) :
    Needs (readAccount address) (writeAccount a) := by
  unfold readAccount writeAccount
  simp only [List.append_assoc]
  exact (needs_amount _).bind (reads_amount _) <| (needs_amount _).bind (reads_amount _) <|
    (needs_names h hlen).first _

theorem needs_token (address : Address) {t : Token} (h : IsShort t.symbol) :
    Needs (readToken address) (writeToken t) := by
  unfold readToken writeToken
  simp only [List.append_assoc]
  exact (needs_text h).bind (reads_text h) <| (needs_byte _).bind (reads_byte _) <|
    (needs_amount _).bind (reads_amount _) <| (needs_amount _).bind (reads_amount _) <|
    (needs_count _).first _

theorem needs_pattern (key : PatternKey) (p : Pattern) :
    Needs (readPattern key) (writePattern p) := by
  unfold readPattern writePattern
  exact (needs_amount _).bind (reads_amount _) <| (needs_count _).first _

theorem needs_swap (txHash : Hash) {s : Swap} (hne : s.path ≠ [])
    (hlen : s.path.length < 2 ^ 64) : Needs (readSwap txHash) (writeSwap s) := by
  unfold readSwap writeSwap
  simp only [List.append_assoc]
  exact (needs_address _).bind (reads_address _) <| (needs_address _).bind (reads_address _) <|
    (needs_path hlen).bind (reads_path hne hlen) <| (needs_address _).bind (reads_address _) <|
    (needs_amount _).bind (reads_amount _) <| (needs_amount _).first _

theorem needs_cursor (c : Cursor) : Needs readCursor (writeCursor c) := by
  unfold readCursor writeCursor
  simp only [List.append_assoc]
  exact (needs_count _).bind (reads_count _) <| (needs_hash _).bind (reads_hash _) <|
    (needs_seconds _).first _

/-! ## §4. Where a value ends. -/

/-- The values of a bucket end where their records end: what follows them is not
looked at, and what has been cut off is not read at all, under whichever key. -/
structure Bucket.SelfDelimiting (bucket : Bucket) : Prop where
  decodeValue_append : ∀ r, bucket.Storable r → ∀ rest,
    bucket.layout.decodeValue (bucket.layout.keyOf r) (bucket.layout.encodeValue r ++ rest) = .ok r
  decodeValue_front : ∀ r, bucket.Storable r → ∀ key front,
    front <+: bucket.layout.encodeValue r → front ≠ bucket.layout.encodeValue r →
    ∃ fault, bucket.layout.decodeValue key front = .error (.badValue fault) ∧ fault.IsEnd
  encodeValue_prefixFree : ∀ r s, bucket.Storable r → bucket.Storable s →
    bucket.layout.encodeValue r <+: bucket.layout.encodeValue s →
    bucket.layout.encodeValue r = bucket.layout.encodeValue s

theorem Reads.decode_append {α : Type} {read : Reader α} {bs : Bytes} {x : α}
    (h : Reads read bs x) (rest : Bytes) : read.decode (bs ++ rest) = .ok x := by
  unfold Reader.decode
  rw [h rest]

theorem Needs.decode_front {α : Type} {read : Reader α} {bs front : Bytes} (h : Needs read bs)
    (hfront : front <+: bs) (hne : front ≠ bs) :
    ∃ fault, read.decode front = .error (.badValue fault) ∧ fault.IsEnd := by
  have hlt : front.length < bs.length :=
    Nat.lt_of_le_of_ne hfront.length_le fun hlen => hne (hfront.eq_of_length hlen)
  obtain ⟨fault, hread, hend⟩ := h front.length hlt
  rw [← List.prefix_iff_eq_take.mp hfront] at hread
  refine ⟨fault, ?_, hend⟩
  unfold Reader.decode
  rw [hread]

section

variable {bucket : Bucket} (hbucket : bucket ≠ .exchange) {r : bucket.Record}
  (hr : bucket.Storable r)

include hbucket hr

theorem Bucket.decodeValue_append (rest : Bytes) :
    bucket.layout.decodeValue (bucket.layout.keyOf r) (bucket.layout.encodeValue r ++ rest)
      = .ok r := by
  cases bucket with
  | exchange => exact absurd rfl hbucket
  | account =>
    show Table.accounts.decodeValue (Table.accounts.keyOf r) (Table.accounts.encodeValue r ++ rest)
      = .ok r
    rw [Table.decodeValue_accounts, Table.encodeValue_accounts, Table.keyOf_accounts]
    exact (Table.reads_account hr.1 hr.2).decode_append rest
  | token =>
    show Table.tokens.decodeValue (Table.tokens.keyOf r) (Table.tokens.encodeValue r ++ rest)
      = .ok r
    rw [Table.decodeValue_tokens, Table.encodeValue_tokens, Table.keyOf_tokens]
    exact (Table.reads_token hr).decode_append rest
  | pattern =>
    show Table.patterns.decodeValue (Table.patterns.keyOf r) (Table.patterns.encodeValue r ++ rest)
      = .ok r
    rw [Table.decodeValue_patterns, Table.encodeValue_patterns, Table.keyOf_patterns]
    exact (Table.reads_pattern r).decode_append rest
  | swap =>
    show Table.swaps.decodeValue (Table.swaps.keyOf r) (Table.swaps.encodeValue r ++ rest) = .ok r
    rw [Table.decodeValue_swaps, Table.encodeValue_swaps, Table.keyOf_swaps]
    exact (Table.reads_swap hr.1 hr.2).decode_append rest
  | cursor =>
    show Table.cursor.decodeValue (Table.cursor.keyOf r) (Table.cursor.encodeValue r ++ rest)
      = .ok r
    rw [Table.decodeValue_cursor, Table.encodeValue_cursor]
    exact (Table.reads_cursor r).decode_append rest

theorem Bucket.decodeValue_front (key : bucket.Key) {front : Bytes}
    (hfront : front <+: bucket.layout.encodeValue r) (hne : front ≠ bucket.layout.encodeValue r) :
    ∃ fault, bucket.layout.decodeValue key front = .error (.badValue fault) ∧ fault.IsEnd := by
  cases bucket with
  | exchange => exact absurd rfl hbucket
  | account => exact (needs_account key hr.1 hr.2).decode_front hfront hne
  | token => exact (needs_token key hr).decode_front hfront hne
  | pattern => exact (needs_pattern key r).decode_front hfront hne
  | swap => exact (needs_swap key hr.1 hr.2).decode_front hfront hne
  | cursor => exact (needs_cursor r).decode_front hfront hne

end

/-- **Values delimit themselves,** except the name of an exchange, which is all there
is to its value. -/
theorem values_self_delimiting (bucket : Bucket) (hbucket : bucket ≠ .exchange) :
    bucket.SelfDelimiting where
  decodeValue_append _ hr rest := Bucket.decodeValue_append hbucket hr rest
  decodeValue_front _ hr key _ hfront hne := Bucket.decodeValue_front hbucket hr key hfront hne
  encodeValue_prefixFree r s hr hs hfront := by
    -- cut off after the first value, the second would be read as a record
    by_contra hne
    obtain ⟨fault, herror, -⟩ :=
      Bucket.decodeValue_front hbucket hs (bucket.layout.keyOf r) hfront hne
    have hok := Bucket.decodeValue_append hbucket hr []
    rw [List.append_nil, herror] at hok
    exact nomatch hok

/-- A wallet that two exchanges have funded. -/
def twiceFunded : Account := ⟨.zero, .clamp 7, 0, .ofList ["a", "b"]⟩

/-- Cut off between its two names, the account is not taken for one with the first
name alone: the count in front of them promises a second one. -/
theorem values_self_delimiting_betweenNames :
    Bucket.account ≠ .exchange
      ∧ Table.accounts.decodeValue .zero (writeAccount twiceFunded ++ [1, 2]) = .ok twiceFunded
      ∧ (writeAccount twiceFunded).take 34
          = writeAmount (.clamp 7) ++ writeAmount 0 ++ (writeCount 2 ++ writeText "a")
      ∧ ∃ fault, Table.accounts.decodeValue .zero ((writeAccount twiceFunded).take 34)
          = .error (.badValue fault) ∧ fault.IsEnd := by
  have hstorable : Bucket.account.Storable twiceFunded := by
    refine ⟨fun name hname => ?_, by decide⟩
    obtain rfl | rfl : name = "a" ∨ name = "b" := by simpa using NameSet.mem_ofList.mp hname
    · decide
    · decide
  have h := values_self_delimiting .account (by decide)
  exact ⟨by decide, h.decodeValue_append _ hstorable _, by decide +kernel,
    h.decodeValue_front _ hstorable _ _ (List.take_prefix 34 _) (by decide +kernel)⟩

end FundTrail.Store
