/-
  FundTrail.Proofs.Swap.Layout
  ────────────────────────────
  **WHERE THE WORDS OF A CALL LIE.**

  `Holds data offset part` says that from an offset on the data goes on with these bytes.
  A reading of words is what the data holds, in both directions: whatever is read lies
  there, wholly inside the data, and whatever lies there is read.  The arguments of a swap
  call are four words with fixed offsets, and the path at the place that the second one
  names; nothing forbids that place to be among the four words, or far behind them.

  What lies in data lies there whatever follows, and in a part of it that has been cut off
  just as far as the part goes.  So a reading is settled by the bytes up to its `extent`.

  Main facts: `arguments?_eq_some_iff` and `arguments?_take_eq_none`.
-/
import FundTrail.Swap.Call
import FundTrail.Proofs.Store.Fields
import Mathlib.Data.List.Forall2

namespace FundTrail

/-! ## §1. Numbers in words. -/

theorem bigEndian_ofBigEndian (bs : Bytes) : bigEndian bs.length (ofBigEndian bs) = bs := by
  unfold bigEndian ofBigEndian
  rw [← List.length_reverse, littleEndian_ofLittleEndian, List.reverse_reverse]

theorem ofBigEndian_bigEndian {w n : Nat} (h : n < 256 ^ w) : ofBigEndian (bigEndian w n) = n := by
  unfold bigEndian ofBigEndian
  rw [List.reverse_reverse, ofLittleEndian_littleEndian h]

/-- A word has one spelling. -/
theorem bigEndian_inj {w m n : Nat} (hm : m < 256 ^ w) (hn : n < 256 ^ w)
    (h : bigEndian w m = bigEndian w n) : m = n := by
  rw [← ofBigEndian_bigEndian hm, h, ofBigEndian_bigEndian hn]

theorem mapM_eq_some_iff {α β : Type} {f : α → Option β} {l : List α} {r : List β} :
    l.mapM f = some r ↔ List.Forall₂ (fun a b => f a = some b) l r := by
  induction l generalizing r with
  | nil =>
    rw [List.mapM_nil, List.forall₂_nil_left_iff]
    exact ⟨fun h => (Option.some.inj h).symm, fun h => congrArg some h.symm⟩
  | cons a l ih =>
    rw [List.mapM_cons, List.forall₂_cons_left_iff]
    constructor
    · intro h
      obtain ⟨b, hb, h⟩ := Option.bind_eq_some_iff.mp h
      obtain ⟨bs, hbs, h⟩ := Option.bind_eq_some_iff.mp h
      exact ⟨b, bs, hb, ih.mp hbs, (Option.some.inj h).symm⟩
    · rintro ⟨b, bs, hb, hbs, rfl⟩
      exact Option.bind_eq_some_iff.mpr
        ⟨b, hb, Option.bind_eq_some_iff.mpr ⟨bs, ih.mpr hbs, rfl⟩⟩

namespace Abi

variable {data part part' : Bytes} {offset n : Nat}

/-! ## §2. What lies at an offset. -/

/-- From an offset on the data goes on with these bytes. -/
def Holds (data : Bytes) (offset : Nat) (part : Bytes) : Prop := part <+: data.drop offset

instance : Decidable (Holds data offset part) :=
  inferInstanceAs (Decidable (part <+: data.drop offset))

/-- At an offset there is the word of an address.  What fills its first twelve bytes does
not matter. -/
def HoldsAddress (data : Bytes) (offset : Nat) (a : Address) : Prop :=
  ∃ filler : Bytes, filler.length = 12 ∧ Holds data offset (filler ++ a.toList)

namespace Holds

/-- What lies in the data lies wholly in it. -/
theorem inside (h : Holds data offset part) (hpart : 0 < part.length) :
    offset + part.length ≤ data.length := by
  have hle := h.length_le
  rw [List.length_drop] at hle
  omega

/-- What follows the data does not matter. -/
theorem append (h : Holds data offset part) (rest : Bytes) :
    Holds (data ++ rest) offset part := by
  unfold Holds
  rw [List.drop_append]
  exact h.trans (List.prefix_append _ _)

/-- At one offset there is one thing of a length. -/
theorem unique (h : Holds data offset part) (h' : Holds data offset part')
    (hlength : part.length = part'.length) : part = part' :=
  (List.prefix_of_prefix_length_le h h' (Nat.le_of_eq hlength)).eq_of_length hlength

end Holds

theorem HoldsAddress.append {a : Address} (h : HoldsAddress data offset a) (rest : Bytes) :
    HoldsAddress (data ++ rest) offset a := by
  obtain ⟨filler, hfiller, h⟩ := h
  exact ⟨filler, hfiller, h.append rest⟩

theorem HoldsAddress.inside {a : Address} (h : HoldsAddress data offset a) :
    offset + 32 ≤ data.length := by
  obtain ⟨filler, hfiller, h⟩ := h
  have hword : (filler ++ a.toList).length = 32 := by
    rw [List.length_append, hfiller, a.length_toList]
  have hinside := h.inside (by omega)
  omega

/-! ## §3. Reading is holding. -/

theorem wordAt?_eq_some_iff {word : Bytes} :
    wordAt? data offset = some word ↔ word.length = 32 ∧ Holds data offset word := by
  unfold wordAt?
  constructor
  · intro h
    split at h
    next hinside =>
      obtain rfl := Option.some.inj h
      refine ⟨?_, List.take_prefix _ _⟩
      rw [List.length_take, List.length_drop]
      omega
    next => exact nomatch h
  · rintro ⟨hlength, h⟩
    have hinside := h.inside (by omega)
    rw [hlength] at hinside
    rw [if_pos hinside, List.prefix_iff_eq_take.mp h, hlength]

theorem numberAt?_eq_some_iff :
    numberAt? data offset = some n ↔ n < 2 ^ 256 ∧ Holds data offset (bigEndian 32 n) := by
  unfold numberAt?
  rw [Option.map_eq_some_iff]
  constructor
  · rintro ⟨word, hword, rfl⟩
    obtain ⟨hlength, h⟩ := wordAt?_eq_some_iff.mp hword
    have hlt := ofBigEndian_lt word
    have hspelling := bigEndian_ofBigEndian word
    rw [hlength] at hlt hspelling
    exact ⟨hlt, hspelling.symm ▸ h⟩
  · rintro ⟨hlt, h⟩
    exact ⟨_, wordAt?_eq_some_iff.mpr ⟨length_bigEndian 32 n, h⟩, ofBigEndian_bigEndian hlt⟩

theorem amountAt?_eq_some_iff {amount : Amount} :
    amountAt? data offset = some amount ↔ Holds data offset (bigEndian 32 amount.toNat) := by
  unfold amountAt?
  rw [Option.map_eq_some_iff]
  constructor
  · rintro ⟨n, hn, rfl⟩
    obtain ⟨hlt, h⟩ := numberAt?_eq_some_iff.mp hn
    rw [Word.toNat_lowBits_of_lt hlt]
    exact h
  · intro h
    refine ⟨_, numberAt?_eq_some_iff.mpr ⟨amount.toNat_lt, h⟩, ?_⟩
    exact Word.ext (Word.toNat_lowBits_of_lt amount.toNat_lt)

theorem sizeAt?_eq_some_iff :
    sizeAt? data offset = some n ↔ n < 2 ^ 32 ∧ Holds data offset (bigEndian 32 n) := by
  unfold sizeAt?
  rw [Option.bind_eq_some_iff]
  constructor
  · rintro ⟨k, hk, h⟩
    split at h
    next hlt =>
      obtain rfl := Option.some.inj h
      exact ⟨hlt, (numberAt?_eq_some_iff.mp hk).2⟩
    next => exact nomatch h
  · rintro ⟨hlt, h⟩
    have hwide : n < 2 ^ 256 := Nat.lt_trans hlt (by decide)
    exact ⟨n, numberAt?_eq_some_iff.mpr ⟨hwide, h⟩, if_pos hlt⟩

theorem addressAt?_eq_some_iff {a : Address} :
    addressAt? data offset = some a ↔ HoldsAddress data offset a := by
  unfold addressAt?
  rw [Option.map_eq_some_iff]
  constructor
  · rintro ⟨word, hword, rfl⟩
    obtain ⟨hlength, h⟩ := wordAt?_eq_some_iff.mp hword
    refine ⟨word.take 12, by rw [List.length_take]; omega, ?_⟩
    -- the last twenty bytes are all that there is behind the first twelve
    have hback : (FixedBytes.ofPrefix (word.drop 12) : Address).toList = word.drop 12 :=
      congrArg FixedBytes.toList
        (Store.ofPrefix_toList (⟨word.drop 12, by rw [List.length_drop]; omega⟩ : Address))
    rw [hback, List.take_append_drop]
    exact h
  · rintro ⟨filler, hfiller, h⟩
    refine ⟨filler ++ a.toList, wordAt?_eq_some_iff.mpr ⟨?_, h⟩, ?_⟩
    · rw [List.length_append, hfiller, a.length_toList]
    · rw [← hfiller, List.drop_left, Store.ofPrefix_toList]

/-- The list of addresses lies at a place: its length, and then its members. -/
structure HoldsPath (data : Bytes) (place : Nat) (path : List Address) : Prop where
  few : path.length < 2 ^ 32
  length : Holds data place (bigEndian 32 path.length)
  members : ∀ (i : Nat) (h : i < path.length), HoldsAddress data (place + 32 + 32 * i) path[i]

/-- All of a list lies in the data. -/
theorem HoldsPath.inside {place : Nat} {path : List Address} (h : HoldsPath data place path) :
    place + 32 + 32 * path.length ≤ data.length := by
  have hlength := h.length.inside (by rw [length_bigEndian]; omega)
  rw [length_bigEndian] at hlength
  rcases Nat.eq_zero_or_pos path.length with hzero | hpos
  · omega
  · have hlast := (h.members (path.length - 1) (by omega)).inside
    omega

theorem addressesAt?_eq_some_iff {path : List Address} :
    addressesAt? data offset = some path
      ↔ ∃ place < 2 ^ 32, Holds data offset (bigEndian 32 place) ∧ HoldsPath data place path := by
  unfold addressesAt?
  constructor
  · intro h
    obtain ⟨place, hplace, h⟩ := Option.bind_eq_some_iff.mp h
    obtain ⟨count, hcount, h⟩ := Option.bind_eq_some_iff.mp h
    obtain ⟨hplaceLt, hplace⟩ := sizeAt?_eq_some_iff.mp hplace
    obtain ⟨hcountLt, hcount⟩ := sizeAt?_eq_some_iff.mp hcount
    split at h
    next =>
      obtain ⟨hlength, hmembers⟩ := List.forall₂_iff_get.mp (mapM_eq_some_iff.mp h)
      rw [List.length_range] at hlength
      subst hlength
      refine ⟨place, hplaceLt, hplace, hcountLt, hcount, fun i hi => ?_⟩
      have hmember := hmembers i (by rw [List.length_range]; exact hi) hi
      rw [List.get_eq_getElem, List.get_eq_getElem, List.getElem_range] at hmember
      exact addressAt?_eq_some_iff.mp hmember
    next => exact nomatch h
  · rintro ⟨place, hplaceLt, hplace, hpath⟩
    refine Option.bind_eq_some_iff.mpr ⟨place, sizeAt?_eq_some_iff.mpr ⟨hplaceLt, hplace⟩, ?_⟩
    refine Option.bind_eq_some_iff.mpr
      ⟨path.length, sizeAt?_eq_some_iff.mpr ⟨hpath.few, hpath.length⟩, ?_⟩
    rw [if_pos hpath.inside, mapM_eq_some_iff, List.forall₂_iff_get]
    refine ⟨List.length_range, fun i _ hi => ?_⟩
    rw [List.get_eq_getElem, List.get_eq_getElem, List.getElem_range]
    exact addressAt?_eq_some_iff.mpr (hpath.members i hi)

end Abi

/-! ## §4. The arguments of a swap call. -/

namespace SwapCall

open Abi

/-- The arguments of a call lie in `args`, with the path at `place`. -/
structure LaidOut (args : Bytes) (place : Nat) (amount : Amount) (path : List Address)
    (recipient : Address) (deadline : Amount) : Prop where
  amount : Holds args 0 (bigEndian 32 amount.toNat)
  near : place < 2 ^ 32
  offset : Holds args 32 (bigEndian 32 place)
  recipient : HoldsAddress args 64 recipient
  deadline : Holds args 96 (bigEndian 32 deadline.toNat)
  path : HoldsPath args place path

/-- How far the arguments of a call reach, with a path of `n` tokens at `place`. -/
def extent (place n : Nat) : Nat := max 128 (place + 32 + 32 * n)

variable {args : Bytes} {place : Nat} {amount : Amount} {path : List Address}
  {recipient : Address} {deadline : Amount}

/-- **The arguments that are read are those that lie there.** -/
theorem arguments?_eq_some_iff :
    arguments? args = some (amount, path, recipient, deadline)
      ↔ ∃ place, LaidOut args place amount path recipient deadline := by
  unfold arguments?
  constructor
  · intro h
    obtain ⟨amount', hamount, h⟩ := Option.bind_eq_some_iff.mp h
    obtain ⟨path', hpath, h⟩ := Option.bind_eq_some_iff.mp h
    obtain ⟨recipient', hrecipient, h⟩ := Option.bind_eq_some_iff.mp h
    obtain ⟨deadline', hdeadline, h⟩ := Option.bind_eq_some_iff.mp h
    obtain ⟨rfl, rfl, rfl, rfl⟩ : amount' = amount ∧ path' = path ∧ recipient' = recipient
        ∧ deadline' = deadline := by simpa using Option.some.inj h
    obtain ⟨place, hnear, hplace, hpath⟩ := addressesAt?_eq_some_iff.mp hpath
    exact ⟨place, amountAt?_eq_some_iff.mp hamount, hnear, hplace,
      addressAt?_eq_some_iff.mp hrecipient, amountAt?_eq_some_iff.mp hdeadline, hpath⟩
  · rintro ⟨place, h⟩
    have hpath : addressesAt? args 32 = some path :=
      addressesAt?_eq_some_iff.mpr ⟨place, h.near, h.offset, h.path⟩
    simp only [amountAt?_eq_some_iff.mpr h.amount, hpath, addressAt?_eq_some_iff.mpr h.recipient,
      amountAt?_eq_some_iff.mpr h.deadline, Option.bind_eq_bind, Option.bind_some, Option.pure_def]

namespace LaidOut

/-- Everything that is read lies in the arguments. -/
theorem inside (h : LaidOut args place amount path recipient deadline) :
    extent place path.length ≤ args.length := by
  have hdeadline := h.deadline.inside (by rw [length_bigEndian]; omega)
  rw [length_bigEndian] at hdeadline
  exact Nat.max_le.mpr ⟨hdeadline, h.path.inside⟩

/-- What follows the arguments does not matter. -/
theorem append (h : LaidOut args place amount path recipient deadline) (rest : Bytes) :
    LaidOut (args ++ rest) place amount path recipient deadline where
  amount := h.amount.append rest
  near := h.near
  offset := h.offset.append rest
  recipient := h.recipient.append rest
  deadline := h.deadline.append rest
  path := ⟨h.path.few, h.path.length.append rest, fun i hi => (h.path.members i hi).append rest⟩

/-- The extent of the arguments is theirs: it does not depend on how they are read. -/
theorem extent_eq {place' : Nat} {amount' : Amount} {path' : List Address} {recipient' : Address}
    {deadline' : Amount} (h : LaidOut args place amount path recipient deadline)
    (h' : LaidOut args place' amount' path' recipient' deadline') :
    extent place' path'.length = extent place path.length := by
  have hwide : ∀ {n : Nat}, n < 2 ^ 32 → n < 256 ^ 32 := fun h => Nat.lt_trans h (by decide)
  obtain rfl : place' = place := by
    refine bigEndian_inj (hwide h'.near) (hwide h.near) (h'.offset.unique h.offset ?_)
    rw [length_bigEndian, length_bigEndian]
  have hlength : path'.length = path.length := by
    refine bigEndian_inj (hwide h'.path.few) (hwide h.path.few) ?_
    refine h'.path.length.unique h.path.length ?_
    rw [length_bigEndian, length_bigEndian]
  rw [hlength]

end LaidOut

/-- **Arguments that have been cut off cannot be read**, wherever the cut is. -/
theorem arguments?_take_eq_none (h : LaidOut args place amount path recipient deadline) {k : Nat}
    (hk : k < extent place path.length) : arguments? (args.take k) = none := by
  refine Option.eq_none_iff_forall_ne_some.mpr fun ⟨amount', path', recipient', deadline'⟩ hread => ?_
  obtain ⟨place', hcut⟩ := arguments?_eq_some_iff.mp hread
  -- what can be read of a part can be read of the whole, and so reaches as far
  have hwhole := hcut.append (args.drop k)
  rw [List.take_append_drop] at hwhole
  have hinside := hcut.inside
  rw [h.extent_eq hwhole, List.length_take] at hinside
  omega

/-! ## §5. The usual layout. -/

/-- Words one behind the other. -/
theorem holds_flatten {words : List Bytes} (hwords : ∀ word ∈ words, word.length = 32) {i : Nat}
    (hi : i < words.length) : Holds words.flatten (32 * i) words[i] := by
  unfold Holds
  induction words generalizing i with
  | nil => exact absurd hi (Nat.not_lt_zero i)
  | cons word words ih =>
    rw [List.flatten_cons]
    cases i with
    | zero => exact List.prefix_append _ _
    | succ i =>
      have hfirst : 32 * (i + 1) = word.length + 32 * i := by
        rw [hwords word List.mem_cons_self]
        omega
      rw [hfirst, List.drop_length_add_append]
      exact ih (fun other h => hwords other (List.mem_cons_of_mem _ h)) (Nat.lt_of_succ_lt_succ hi)

theorem length_flatten_words {words : List Bytes} (hwords : ∀ word ∈ words, word.length = 32) :
    words.flatten.length = 32 * words.length := by
  induction words with
  | nil => rfl
  | cons word words ih =>
    rw [List.flatten_cons, List.length_append, hwords word List.mem_cons_self,
      ih fun other h => hwords other (List.mem_cons_of_mem _ h), List.length_cons]
    omega

/-- The word of an address, with nothing in front of it. -/
def addressWord (a : Address) : Bytes := List.replicate 12 0 ++ a.toList

/-- The words of a call's arguments: the path follows the other four, and nothing follows
the path. -/
def argumentWords (amount : Amount) (path : List Address) (recipient : Address)
    (deadline : Amount) : List Bytes :=
  [bigEndian 32 amount.toNat, bigEndian 32 128, addressWord recipient,
    bigEndian 32 deadline.toNat, bigEndian 32 path.length] ++ path.map addressWord

/-- The arguments of a call in the usual layout. -/
def encodeArguments (amount : Amount) (path : List Address) (recipient : Address)
    (deadline : Amount) : Bytes :=
  (argumentWords amount path recipient deadline).flatten

theorem length_of_mem_argumentWords {word : Bytes}
    (h : word ∈ argumentWords amount path recipient deadline) : word.length = 32 := by
  have haddress : ∀ a, (addressWord a).length = 32 := fun a => by
    unfold addressWord
    rw [List.length_append, List.length_replicate, a.length_toList]
  rcases List.mem_append.mp h with h | h
  · simp only [List.mem_cons, List.not_mem_nil, or_false] at h
    rcases h with rfl | rfl | rfl | rfl | rfl
    · exact length_bigEndian 32 _
    · exact length_bigEndian 32 _
    · exact haddress recipient
    · exact length_bigEndian 32 _
    · exact length_bigEndian 32 _
  · obtain ⟨a, -, rfl⟩ := List.mem_map.mp h
    exact haddress a

theorem length_encodeArguments (amount : Amount) (path : List Address) (recipient : Address)
    (deadline : Amount) :
    (encodeArguments amount path recipient deadline).length = extent 128 path.length := by
  have hwords : (argumentWords amount path recipient deadline).length = 5 + path.length := by
    unfold argumentWords
    rw [List.length_append, List.length_map]
    rfl
  unfold encodeArguments extent
  rw [length_flatten_words fun _ h => length_of_mem_argumentWords h, hwords]
  omega

/-- **In the usual layout everything lies where it is looked for.** -/
theorem laidOut_encodeArguments (amount : Amount) {path : List Address} (recipient : Address)
    (deadline : Amount) (hpath : path.length < 2 ^ 32) :
    LaidOut (encodeArguments amount path recipient deadline) 128 amount path recipient
      deadline := by
  have hword : ∀ {i : Nat} {word : Bytes},
      (argumentWords amount path recipient deadline)[i]? = some word →
      Holds (encodeArguments amount path recipient deadline) (32 * i) word := by
    intro i word h
    obtain ⟨hi, rfl⟩ := List.getElem?_eq_some_iff.mp h
    exact holds_flatten (fun _ h => length_of_mem_argumentWords h) hi
  have haddress : ∀ {i : Nat} {a : Address},
      (argumentWords amount path recipient deadline)[i]? = some (addressWord a) →
      HoldsAddress (encodeArguments amount path recipient deadline) (32 * i) a :=
    fun h => ⟨List.replicate 12 0, List.length_replicate, hword h⟩
  constructor
  case amount => exact hword (i := 0) rfl
  case near => decide
  case offset => exact hword (i := 1) rfl
  case recipient => exact haddress (i := 2) rfl
  case deadline => exact hword (i := 3) rfl
  case path =>
    refine ⟨hpath, hword (i := 4) rfl, fun i hi => ?_⟩
    have hplace : 128 + 32 + 32 * i = 32 * (5 + i) := by omega
    rw [hplace]
    refine haddress ?_
    unfold argumentWords
    rw [List.getElem?_append_right (by simp), List.getElem?_map]
    simp [hi]

end SwapCall

end FundTrail
