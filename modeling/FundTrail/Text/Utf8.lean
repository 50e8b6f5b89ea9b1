/-
  FundTrail.Text.Utf8
  ───────────────────
  **UTF-8, AND WHERE IT BREAKS.**

  A name is stored as its UTF-8 bytes, so reading it back can fail.  `Utf8.read`
  gives the text or the first fault: the index at which the well-formed part
  ends and, unless the bytes simply stop, the number of bytes that rule out
  every continuation.  `Utf8.readLossy` never fails: it puts U+FFFD for each
  such run of bytes.

  Main definitions: `tailRanges` — the table of well-formed sequences, by first
  byte — and `check`, one sequence against that table.
-/
import FundTrail.Bytes

namespace FundTrail.Utf8

/-- Where a byte string stops being UTF-8. -/
structure Fault where
  /-- How many bytes before it are well formed. -/
  index : Nat
  /-- How many bytes from there on rule out every character; none when the bytes
  end in the middle of one. -/
  length : Option Nat
  deriving DecidableEq, Repr

/-- The wording of a fault. -/
def Fault.message (f : Fault) : String :=
  match f.length with
  | some k => s!"invalid utf-8 sequence of {k} bytes from index {f.index}"
  | none => s!"incomplete utf-8 byte sequence from index {f.index}"

/-! ## §1. One sequence. -/

/-- The ranges in which the bytes after `first` have to lie, one range for each
of them; none if no sequence starts with `first`. -/
def tailRanges (first : UInt8) : Option (List (UInt8 × UInt8)) :=
  if first ≤ 0x7f then some []
  else if 0xc2 ≤ first ∧ first ≤ 0xdf then some [(0x80, 0xbf)]
  else if first = 0xe0 then some [(0xa0, 0xbf), (0x80, 0xbf)]
  else if first = 0xed then some [(0x80, 0x9f), (0x80, 0xbf)]
  else if 0xe1 ≤ first ∧ first ≤ 0xef then some [(0x80, 0xbf), (0x80, 0xbf)]
  else if first = 0xf0 then some [(0x90, 0xbf), (0x80, 0xbf), (0x80, 0xbf)]
  else if 0xf1 ≤ first ∧ first ≤ 0xf3 then
    some [(0x80, 0xbf), (0x80, 0xbf), (0x80, 0xbf)]
  else if first = 0xf4 then some [(0x80, 0x8f), (0x80, 0xbf), (0x80, 0xbf)]
  else none

/-- What stands at the front of a byte string. -/
inductive Front where
  /-- A well-formed sequence with `tail` bytes after its first. -/
  | character (tail : Nat)
  /-- The first byte and `tail` more rule out every character. -/
  | broken (tail : Nat)
  /-- The bytes end before the sequence does. -/
  | unfinished
  deriving DecidableEq, Repr

/-- Check the bytes after the first against the ranges; `seen` of them are
already accepted. -/
def checkTail : List (UInt8 × UInt8) → Nat → Bytes → Front
  | [], seen, _ => .character seen
  | _ :: _, _, [] => .unfinished
  | (low, high) :: ranges, seen, b :: bs =>
      if low ≤ b ∧ b ≤ high then checkTail ranges (seen + 1) bs else .broken seen

/-- The sequence that starts with `first`. -/
def check (first : UInt8) (rest : Bytes) : Front :=
  match tailRanges first with
  | some ranges => checkTail ranges 0 rest
  | none => .broken 0

/-! ## §2. Whole byte strings. -/

/-- The first fault of a byte string that is not UTF-8.  Of well-formed bytes it
names the end. -/
def firstFault : Bytes → Fault :=
  go 0 0
where
  /-- `skip` bytes belong to a sequence that is already checked. -/
  go (skip index : Nat) : Bytes → Fault
    | [] => ⟨index, none⟩
    | b :: bs =>
      match skip with
      | skip + 1 => go skip (index + 1) bs
      | 0 =>
        match check b bs with
        | .character tail => go tail (index + 1) bs
        | .broken tail => ⟨index, some (tail + 1)⟩
        | .unfinished => ⟨index, none⟩

/-- The text with the given UTF-8 bytes. -/
def read? (bs : Bytes) : Option String := String.fromUTF8? ⟨bs.toArray⟩

/-- The text with the given UTF-8 bytes, or the fault that makes it unreadable. -/
def read (bs : Bytes) : Except Fault String :=
  match read? bs with
  | some s => .ok s
  | none => .error (firstFault bs)

/-- The UTF-8 bytes of a text. -/
def write (s : String) : Bytes := s.toByteArray.data.toList

/-- The text with the given UTF-8 bytes, with U+FFFD for each run of bytes that
is no character. -/
def readLossy (bs : Bytes) : String :=
  go 0 bs
where
  /-- `skip` bytes belong to a character or run that is already written. -/
  go (skip : Nat) : Bytes → String
    | [] => ""
    | b :: bs =>
      match skip with
      | skip + 1 => go skip bs
      | 0 =>
        match check b bs with
        | .character tail => (read? (b :: bs.take tail)).getD "\uFFFD" ++ go tail bs
        | .broken tail => "\uFFFD" ++ go tail bs
        | .unfinished => "\uFFFD"

/-! ## §3. Reading undoes writing. -/

@[simp] theorem read?_write (s : String) : read? (write s) = some s := by
  have h : (⟨(write s).toArray⟩ : ByteArray) = s.toByteArray := by
    simp [write]
  rw [read?, h, String.fromUTF8?, dif_pos s.isValidUTF8]
  rfl

@[simp] theorem read_write (s : String) : read (write s) = .ok s := by
  rw [read, read?_write]

theorem write_of_read? {bs : Bytes} {s : String} (h : read? bs = some s) : write s = bs := by
  unfold read? String.fromUTF8? at h
  split at h
  next => injection h with h; subst h; simp [write, String.fromUTF8]
  next => exact absurd h (by simp)

theorem read_eq_ok_iff {bs : Bytes} {s : String} : read bs = .ok s ↔ bs = write s := by
  constructor
  · intro h
    unfold read at h
    split at h
    next t ht => injection h with h; subst h; exact (write_of_read? ht).symm
    next => exact absurd h (by simp)
  · intro h
    subst h
    exact read_write s

theorem write_injective {s t : String} (h : write s = write t) : s = t := by
  have hs := read?_write s
  rw [h, read?_write] at hs
  injection hs with hs
  exact hs.symm

end FundTrail.Utf8
