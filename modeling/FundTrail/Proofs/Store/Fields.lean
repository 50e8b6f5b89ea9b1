/-
  FundTrail.Proofs.Store.Fields
  ─────────────────────────────
  **EVERY FIELD COMES BACK AS IT WAS WRITTEN.**

  `Reads read bs x` says that a reader takes `x` off the front of a byte string
  that begins with `bs`, whatever follows.  It composes along the reader's own
  sequence (`Reads.bind`), so that the law of a value is assembled from the laws
  of its fields, in their order.

  A length is written in eight bytes.  Texts and paths of that many items do not
  exist, but lists can be of any length; what does not fit is excluded by
  `IsShort` for texts and by an explicit bound for paths and sets.

  Main facts: `reads_amount`, `reads_text`, `reads_path`, `reads_names` and
  `reads_hash`.
-/
import FundTrail.Store.Table

namespace FundTrail.Store

/-! ## §1. Readers that undo writers. -/

theorem Reader.bind_error {α β : Type} {read : Reader α} {next : α → Reader β} {bs : Bytes}
    {fault : ValueFault} (h : read bs = .error fault) : (read >>= next) bs = .error fault := by
  show (read bs >>= fun p => next p.1 p.2) = _
  rw [h]
  rfl

/-- `read` takes `x` off the bytes `bs`, whatever follows them. -/
def Reads {α : Type} (read : Reader α) (bs : Bytes) (x : α) : Prop :=
  ∀ rest, read (bs ++ rest) = .ok (x, rest)

namespace Reads

variable {α β : Type} {read : Reader α} {bs : Bytes} {x : α}

theorem bind {next : α → Reader β} {cs : Bytes} {y : β} (h : Reads read bs x)
    (g : Reads (next x) cs y) : Reads (read >>= next) (bs ++ cs) y := by
  intro rest
  rw [List.append_assoc, Reader.bind_ok (h _)]
  exact g rest

theorem pure (x : α) : Reads (Pure.pure x) [] x := fun _ => rfl

/-- The last field of a value. -/
theorem last {f : α → β} (h : Reads read bs x) :
    Reads (read >>= fun y => Pure.pure (f y)) bs (f x) := by
  have hf : Reads (read >>= fun y => Pure.pure (f y)) (bs ++ []) (f x) :=
    h.bind (Reads.pure (f x))
  rwa [List.append_nil] at hf

theorem decode (h : Reads read bs x) : read.decode bs = .ok x := by
  have h := h []
  rw [List.append_nil] at h
  unfold Reader.decode
  rw [h]

end Reads

theorem reads_bytes (fault : ValueFault) {bs : Bytes} {n : Nat} (h : bs.length = n) :
    Reads (readBytes fault n) bs bs := by
  intro rest
  subst h
  exact readBytes_append fault bs rest

theorem reads_byte (b : UInt8) : Reads readByte [b] b := fun _ => rfl

theorem reads_length {n : Nat} (h : n < 2 ^ 64) :
    Reads readCount (writeCount n) (Word.lowBits n) := readCount_writeCount h

theorem reads_count (n : Count) : Reads readCount (writeCount n.toNat) n := by
  have h := reads_length n.toNat_lt
  rwa [show (Word.lowBits n.toNat : Count) = n from
    Word.ext (Word.toNat_lowBits_of_lt n.toNat_lt)] at h

/-- A number that does not fit is written without its higher bytes. -/
theorem writeCount_mod (n : Nat) : writeCount (n % 2 ^ 64) = writeCount n := by
  -- for any number of bytes, by the lowest of them
  have key : ∀ w n : Nat, littleEndian w (n % 256 ^ w) = littleEndian w n := by
    intro w
    induction w with
    | zero => intro n; rfl
    | succ w ih =>
      intro n
      have hlow : n % 256 ^ (w + 1) % 256 = n % 256 := by
        rw [Nat.pow_succ']
        exact Nat.mod_mul_right_mod n 256 _
      have hhigh : n % 256 ^ (w + 1) / 256 = n / 256 % 256 ^ w := by
        rw [Nat.pow_succ']
        exact Nat.mod_mul_right_div_self n 256 _
      rw [littleEndian, littleEndian, hlow, hhigh, ih]
  exact key 8 n

theorem readCount_writeCount_mod (n : Nat) (rest : Bytes) :
    readCount (writeCount n ++ rest) = .ok (Word.lowBits n, rest) := by
  have h : n % 2 ^ 64 < 2 ^ 64 := Nat.mod_lt _ (Nat.two_pow_pos 64)
  rw [← writeCount_mod, readCount_writeCount h]
  congr 2
  exact Word.ext (Nat.mod_eq_of_lt h)

theorem reads_blob {bs : Bytes} (h : bs.length < 2 ^ 64) : Reads readBlob (writeBlob bs) bs :=
  readBlob_writeBlob h

/-- What a sequence of two readers has read was read by the two. -/
theorem Reader.bind_eq_ok {α β : Type} {read : Reader α} {next : α → Reader β}
    {bs rest : Bytes} {y : β} (h : (read >>= next) bs = .ok (y, rest)) :
    ∃ x mid, read bs = .ok (x, mid) ∧ next x mid = .ok (y, rest) := by
  change (read bs >>= fun p => next p.1 p.2) = _ at h
  cases hr : read bs with
  | error fault => rw [hr] at h; exact nomatch h
  | ok p => rw [hr] at h; exact ⟨p.1, p.2, rfl, h⟩

/-! ## §2. Amounts. -/

/-- Zero bytes in front do not count. -/
theorem ofBigEndian_dropWhile (bs : Bytes) :
    ofBigEndian (bs.dropWhile (· == 0)) = ofBigEndian bs := by
  induction bs with
  | nil => rfl
  | cons b bs ih =>
    rw [List.dropWhile_cons]
    split
    next h =>
      -- the highest byte is zero, and adds nothing
      have hb : b = 0 := by simpa using h
      subst hb
      rw [ih]
      unfold ofBigEndian
      rw [List.reverse_cons, ofLittleEndian_append]
      simp [ofLittleEndian]
    next => rfl

theorem length_encodeAmount_le (a : Amount) : (encodeAmount a).length ≤ 32 := by
  have h := (List.dropWhile_suffix (l := bigEndian 32 a.toNat) (· == 0)).length_le
  rwa [length_bigEndian] at h

@[simp] theorem decodeAmount?_encodeAmount (a : Amount) :
    decodeAmount? (encodeAmount a) = some a := by
  have hval : ofBigEndian (encodeAmount a) = a.toNat := by
    unfold encodeAmount
    rw [ofBigEndian_dropWhile, ofBigEndian, bigEndian, List.reverse_reverse]
    exact ofLittleEndian_littleEndian (Nat.lt_of_lt_of_le a.toNat_lt (by decide))
  rw [decodeAmount?, if_pos (length_encodeAmount_le a), hval]
  exact Word.ofNat?_eq_some_iff.2 rfl

theorem reads_amount (a : Amount) : Reads readAmount (writeAmount a) a := by
  have hlen : (encodeAmount a).length < 2 ^ 64 := by
    have := length_encodeAmount_le a
    omega
  intro rest
  unfold readAmount writeAmount
  rw [Reader.bind_ok (reads_blob hlen rest), decodeAmount?_encodeAmount]
  rfl

/-! ## §3. Texts and addresses. -/

/-- The length of the text fits in eight bytes, as that of every text does that
is somewhere in memory. -/
def IsShort (s : String) : Prop := (Utf8.write s).length < 2 ^ 64

instance (s : String) : Decidable (IsShort s) :=
  inferInstanceAs (Decidable ((Utf8.write s).length < 2 ^ 64))

theorem reads_text {s : String} (h : IsShort s) : Reads readText (writeText s) s := by
  intro rest
  unfold readText writeText writeBlob
  rw [List.append_assoc, Reader.bind_ok (reads_length h _),
    Reader.bind_ok (reads_bytes .endOfText (Word.toNat_lowBits_of_lt h).symm rest), Utf8.read_write]
  rfl

/-- A text that has been read is short: its length was read before it. -/
theorem isShort_of_readText {bs rest : Bytes} {s : String} (h : readText bs = .ok (s, rest)) :
    IsShort s := by
  unfold readText at h
  obtain ⟨n, bs, -, h⟩ := Reader.bind_eq_ok h
  obtain ⟨text, bs', ht, h⟩ := Reader.bind_eq_ok h
  -- no more bytes were taken than the count in front of them says
  have hlen : text.length ≤ n.toNat := by
    unfold readBytes at ht
    split at ht
    next =>
      injection ht with ht
      injection ht with ht _
      subst ht
      exact List.length_take_le _ _
    next => exact nomatch ht
  cases hs : Utf8.read text with
  | error fault => rw [hs] at h; exact nomatch h
  | ok t =>
    rw [hs] at h
    injection h with h
    injection h with h _
    subst h
    unfold IsShort
    -- the bytes of the text are those that were taken
    rw [← Utf8.read_eq_ok_iff.1 hs]
    have := n.toNat_lt
    omega

theorem reads_address (a : Address) : Reads readAddress (writeAddress a) a := by
  have hlen : a.toList.length < 2 ^ 64 := by rw [a.length_toList]; decide
  intro rest
  unfold readAddress writeAddress
  rw [Reader.bind_ok (reads_blob hlen rest), FixedBytes.ofList?_toList]
  rfl

theorem ofPrefix_toList {n : Nat} (b : FixedBytes n) : FixedBytes.ofPrefix b.toList = b := by
  apply FixedBytes.ext
  unfold FixedBytes.ofPrefix
  show b.toList.take n ++ List.replicate (n - b.toList.length) 0 = b.toList
  rw [b.length_toList, Nat.sub_self, List.replicate_zero, List.append_nil]
  exact List.take_of_length_le (Nat.le_of_eq b.length_toList)

theorem reads_bareAddress (a : Address) : Reads readBareAddress a.toList a := by
  have h := (reads_bytes .endOfInput a.length_toList).last (f := (FixedBytes.ofPrefix : _ → Address))
  rwa [ofPrefix_toList] at h

/-! ## §4. Lists. -/

/-- Of the items that have been written one after the other, the first ones can
be read alone. -/
theorem readMany_take {α : Type} {read : Reader α} {write : α → Bytes} {xs : List α}
    (h : ∀ x ∈ xs, Reads read (write x) x) {n : Nat} (hn : n ≤ xs.length) (rest : Bytes) :
    readMany read n (xs.flatMap write ++ rest)
      = .ok (xs.take n, (xs.drop n).flatMap write ++ rest) := by
  induction xs generalizing n with
  | nil =>
    have hn : n = 0 := by simpa using hn
    subst hn
    rfl
  | cons x xs ih =>
    cases n with
    | zero => rfl
    | succ n =>
      have hx := h x List.mem_cons_self
      have ih := ih (fun y hy => h y (List.mem_cons_of_mem _ hy)) (Nat.le_of_succ_le_succ hn)
      rw [readMany, List.flatMap_cons, List.append_assoc, Reader.bind_ok (hx _), Reader.bind_ok ih]
      rfl

theorem reads_many {α : Type} {read : Reader α} {write : α → Bytes} {xs : List α}
    (h : ∀ x ∈ xs, Reads read (write x) x) :
    Reads (readMany read xs.length) (xs.flatMap write) xs := by
  intro rest
  have := readMany_take h (Nat.le_refl _) rest
  rwa [List.take_length, List.drop_length] at this

theorem isShort_of_readMany {n : Nat} {bs rest : Bytes} {texts : List String}
    (h : readMany readText n bs = .ok (texts, rest)) : ∀ s ∈ texts, IsShort s := by
  induction n generalizing bs texts with
  | zero =>
    injection h with h
    injection h with h _
    subst h
    intro s hs
    exact absurd hs List.not_mem_nil
  | succ n ih =>
    rw [readMany] at h
    obtain ⟨t, bs', ht, h⟩ := Reader.bind_eq_ok h
    obtain ⟨ts, bs'', hts, h⟩ := Reader.bind_eq_ok h
    injection h with h
    injection h with h hrest
    subst h hrest
    intro s hs
    rcases List.mem_cons.1 hs with rfl | hs
    · exact isShort_of_readText ht
    · exact ih hts s hs

theorem reads_path {path : List Address} (hne : path ≠ []) (hlen : path.length < 2 ^ 64) :
    Reads readPath (writePath path) path := by
  intro rest
  have hp := reads_many (fun a (_ : a ∈ path) => reads_bareAddress a) rest
  have hcount : (Word.lowBits path.length : Word 64).toNat = path.length :=
    Word.toNat_lowBits_of_lt hlen
  rw [← hcount] at hp
  unfold readPath writePath
  rw [List.append_assoc, Reader.bind_ok (reads_length hlen _), Reader.bind_ok hp,
    if_neg (by simpa using hne)]
  rfl

theorem NameSet.mem_ofList {a : String} {names : List String} :
    a ∈ NameSet.ofList names ↔ a ∈ names := by
  -- with the names already in the set, for the induction
  have key : ∀ (l : List String) (s : NameSet),
      a ∈ l.foldl (fun s a => s.insert a) s ↔ a ∈ s ∨ a ∈ l := by
    intro l
    induction l with
    | nil => intro s; simp
    | cons b l ih =>
      intro s
      rw [List.foldl_cons, ih, NameSet.mem_insert, List.mem_cons]
      constructor
      · rintro ((h | h) | h)
        · exact .inr (.inl h)
        · exact .inl h
        · exact .inr (.inr h)
      · rintro (h | h | h)
        · exact .inl (.inr h)
        · exact .inl (.inl h)
        · exact .inr h
  unfold NameSet.ofList
  rw [key]
  simp

/-- A name that comes after all others is put last. -/
theorem NameSet.insertInto_of_last {a : String} {bs : List String}
    (h : ∀ b ∈ bs, NameBefore b a) : NameSet.insertInto a bs = bs ++ [a] := by
  induction bs with
  | nil => rfl
  | cons b bs ih =>
    have hb := h b List.mem_cons_self
    have hnot : ¬ NameBefore a b := fun hab => NameBefore.irrefl a (hab.trans hb)
    have hne : a ≠ b := by
      rintro rfl
      exact NameBefore.irrefl a hb
    rw [NameSet.insertInto, if_neg hnot, if_neg hne, ih fun c hc => h c (List.mem_cons_of_mem _ hc)]
    rfl

/-- The names of a set, put in one after the other, make up the set. -/
theorem NameSet.ofList_toList (names : NameSet) : NameSet.ofList names.toList = names := by
  -- with the names already in the set, for the induction: all of them come before the rest
  have key : ∀ (l : List String) (s : NameSet), (s.toList ++ l).Pairwise NameBefore →
      (l.foldl (fun s a => s.insert a) s).toList = s.toList ++ l := by
    intro l
    induction l with
    | nil => intro s _; exact (List.append_nil _).symm
    | cons a l ih =>
      intro s h
      have hlast : (s.insert a).toList = s.toList ++ [a] :=
        NameSet.insertInto_of_last fun b hb =>
          (List.pairwise_append.1 h).2.2 b hb a List.mem_cons_self
      rw [List.foldl_cons, ih (s.insert a) (by rw [hlast, List.append_assoc]; exact h), hlast,
        List.append_assoc]
      rfl
  exact NameSet.ext (key names.toList .empty names.ascending)

/-- A set of short names, no more of them than a count can tell. -/
theorem reads_names {names : NameSet} (h : ∀ s ∈ names, IsShort s)
    (hlen : names.toList.length < 2 ^ 64) : Reads readNames (writeNames names) names := by
  intro rest
  have hnames := reads_many (fun s hs => reads_text (h s hs)) rest
  have hcount : (Word.lowBits names.toList.length : Count).toNat = names.toList.length :=
    Word.toNat_lowBits_of_lt hlen
  rw [← hcount] at hnames
  unfold readNames writeNames
  rw [List.append_assoc, Reader.bind_ok (reads_length hlen _), Reader.bind_ok hnames,
    NameSet.ofList_toList]
  rfl

/-- Names that are short can be read again.  Of a set of more names than a count
can tell only the first ones are. -/
theorem readNames_writeNames {names : NameSet} (h : ∀ s ∈ names, IsShort s) (rest : Bytes) :
    ∃ read left, readNames (writeNames names ++ rest) = .ok (read, left) := by
  have hcount := readCount_writeCount_mod names.toList.length
    (names.toList.flatMap writeText ++ rest)
  -- the count may have lost its high bits, but it never says too much
  have hn : (Word.lowBits names.toList.length : Count).toNat ≤ names.toList.length := by
    rw [Word.toNat_lowBits]
    exact Nat.mod_le _ _
  have hnames := readMany_take (fun s hs => reads_text (h s hs)) hn rest
  unfold readNames writeNames
  rw [List.append_assoc, Reader.bind_ok hcount, Reader.bind_ok hnames]
  exact ⟨_, _, rfl⟩

/-- Names that have been read are short. -/
theorem isShort_of_readNames {bs rest : Bytes} {names : NameSet}
    (h : readNames bs = .ok (names, rest)) : ∀ s ∈ names, IsShort s := by
  unfold readNames at h
  obtain ⟨n, bs, -, h⟩ := Reader.bind_eq_ok h
  obtain ⟨list, bs', hl, h⟩ := Reader.bind_eq_ok h
  injection h with h
  injection h with h _
  subst h
  intro s hs
  exact isShort_of_readMany hl s (NameSet.mem_ofList.1 hs)

/-! ## §5. Hashes and times. -/

theorem write_ofList (cs : List Char) :
    Utf8.write (String.ofList cs) = cs.flatMap String.utf8EncodeChar := by
  simp [Utf8.write, List.utf8Encode]

theorem write_append (s t : String) : Utf8.write (s ++ t) = Utf8.write s ++ Utf8.write t := by
  simp [Utf8.write]

/-- The byte of a hexadecimal digit. -/
def digitByte (n : Nat) : UInt8 := if n < 10 then UInt8.ofNat (48 + n) else UInt8.ofNat (87 + n)

theorem utf8EncodeChar_hexDigit :
    ∀ n < 16, String.utf8EncodeChar (hexDigit n) = [digitByte n] := by
  decide

theorem digitValue?_digitByte : ∀ n < 16, HexString.digitValue? (digitByte n) = some n := by
  decide

theorem write_hexText (bs : Bytes) : Utf8.write (hexText bs)
    = bs.flatMap fun b => [digitByte (b.toNat / 16), digitByte (b.toNat % 16)] := by
  unfold hexText
  rw [write_ofList]
  induction bs with
  | nil => rfl
  | cons b bs ih =>
    have hb : b.toNat < 256 := b.toNat_lt
    -- both digits of a byte are ASCII, and take one byte each
    rw [List.flatMap_cons, List.flatMap_append, ih, List.flatMap_cons]
    show String.utf8EncodeChar _ ++ (String.utf8EncodeChar _ ++ []) ++ _ = _
    rw [utf8EncodeChar_hexDigit _ (by omega), utf8EncodeChar_hexDigit _ (by omega)]
    rfl

theorem digits_hexText (index : Nat) (bs : Bytes) :
    HexString.digits index
        (bs.flatMap fun b => [digitByte (b.toNat / 16), digitByte (b.toNat % 16)])
      = .ok (bs.flatMap fun b => [b.toNat / 16, b.toNat % 16]) := by
  induction bs generalizing index with
  | nil => rfl
  | cons b bs ih =>
    have hb : b.toNat < 256 := b.toNat_lt
    rw [List.flatMap_cons, List.flatMap_cons]
    simp only [List.cons_append, List.nil_append]
    -- the high digit, and then the low one
    rw [HexString.digits, digitValue?_digitByte _ (by omega)]
    show (HexString.digits (index + 1) (digitByte _ :: _)).map _ = _
    rw [HexString.digits, digitValue?_digitByte _ (by omega)]
    show ((HexString.digits (index + 1 + 1) _).map _).map _ = _
    rw [ih]
    rfl

theorem pairUp_nibbles (bs : Bytes) :
    HexString.pairUp (bs.flatMap fun b => [b.toNat / 16, b.toNat % 16]) = bs := by
  induction bs with
  | nil => rfl
  | cons b bs ih =>
    rw [List.flatMap_cons]
    simp only [List.cons_append, List.nil_append]
    rw [HexString.pairUp, ih, Nat.div_add_mod, UInt8.ofNat_toNat]

theorem length_write_hexText (bs : Bytes) : (Utf8.write (hexText bs)).length = 2 * bs.length := by
  rw [write_hexText]
  induction bs with
  | nil => rfl
  | cons b bs ih =>
    rw [List.flatMap_cons, List.length_append, ih]
    show 2 + 2 * bs.length = 2 * (bs.length + 1)
    omega

/-- The text of a hash or an address spells it. -/
theorem read_text {n : Nat} (b : FixedBytes n) : HexString.read n b.text = .ok b := by
  have hmark : HexString.dropMark (Utf8.write b.text) = (Utf8.write (hexText b.toList), 2) := by
    unfold FixedBytes.text
    rw [write_append]
    rfl
  have hlen : (Utf8.write (hexText b.toList)).length = 2 * n := by
    rw [length_write_hexText, b.length_toList]
  unfold HexString.read
  rw [hmark]
  show (if _ then _ else _) = _
  rw [if_pos hlen, write_hexText, digits_hexText]
  show Except.ok (FixedBytes.ofPrefix _) = _
  rw [pairUp_nibbles, ofPrefix_toList]

theorem isShort_text (h : Hash) : IsShort h.text := by
  unfold IsShort FixedBytes.text
  rw [write_append, List.length_append, length_write_hexText, h.length_toList]
  decide

theorem reads_hash (h : Hash) : Reads readHash (writeText h.text) h := by
  intro rest
  unfold readHash
  rw [Reader.bind_ok (reads_text (isShort_text h) rest), read_text]
  rfl

theorem reads_seconds (t : Int64) : Reads readSeconds (writeSeconds t) t := by
  have h := (reads_length t.toUInt64.toNat_lt).last
    (f := fun n : Count => (UInt64.ofNat n.toNat).toInt64)
  rw [Word.toNat_lowBits_of_lt t.toUInt64.toNat_lt, UInt64.ofNat_toNat] at h
  exact h

end FundTrail.Store
