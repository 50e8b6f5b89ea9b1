/-
  FundTrail.Proofs.Store.Enumeration
  ──────────────────────────────────
  **WHAT CAN BE LISTED AFTER A PUT.**

  One row that cannot be read is enough, and a bucket cannot be listed any more.  So
  whatever is written has to be read again.  It is, whatever texts, sets, amounts and
  numbers stand in a record, with a single exception: a swap with an empty path is
  written, and then it is refused.

  A record other than that joins the list, or takes the place of the one with its key.
  Such a swap hides all swaps that could be listed before.

  Main facts: `keeps_or_pathless`, `decodeValue_of_pathless` and `listing_after_put`.
-/
import FundTrail.Proofs.Store.Canonical
import FundTrail.Proofs.Store.Listing
import FundTrail.Store.Script

namespace FundTrail.Store

/-! ## §1. Records, as far as they are read again. -/

namespace Bucket

/-- No text, set or path in the record is longer than a length can tell.  No machine
holds anything else. -/
def Sized : (bucket : Bucket) → bucket.Record → Prop
  | .account, a =>
      (∀ name ∈ a.fromExchanges, IsShort name) ∧ a.fromExchanges.toList.length < 2 ^ 64
  | .token, t => IsShort t.symbol
  | .swap, s => s.path.length < 2 ^ 64
  | .exchange, _ => True
  | .pattern, _ => True
  | .cursor, _ => True

/-- A swap along no tokens at all. -/
def Pathless : (bucket : Bucket) → bucket.Record → Prop
  | .swap, s => s.path = []
  | .exchange, _ => False
  | .account, _ => False
  | .token, _ => False
  | .pattern, _ => False
  | .cursor, _ => False

variable {bucket : Bucket} {r : bucket.Record}

theorem storable_of_sized (h : bucket.Sized r) (hr : ¬ bucket.Pathless r) :
    bucket.Storable r := by
  cases bucket with
  | exchange => trivial
  | account => exact h
  | token => exact h
  | pattern => trivial
  | swap => exact ⟨hr, h⟩
  | cursor => trivial

/-- An empty path is written as a count of zero, which no path may have. -/
theorem readPath_writePath_nil (rest : Bytes) :
    readPath (writePath [] ++ rest) = .error .emptyPath := by
  unfold readPath writePath
  rw [List.flatMap_nil, List.append_nil]
  exact Reader.bind_ok (reads_length (Nat.two_pow_pos 64) rest)

theorem readSwap_writeSwap_of_nil {s : Swap} (h : s.path = []) :
    readSwap s.txHash (writeSwap s) = .error .emptyPath := by
  unfold readSwap writeSwap
  rw [h]
  simp only [List.append_assoc]
  rw [Reader.bind_ok (reads_address _ _), Reader.bind_ok (reads_address _ _)]
  exact Reader.bind_error (readPath_writePath_nil _)

/-- **What is written of a pathless swap is refused.** -/
theorem decodeValue_of_pathless (hr : bucket.Pathless r) :
    bucket.layout.decodeValue (bucket.layout.keyOf r) (bucket.layout.encodeValue r)
      = .error (.badValue .emptyPath) := by
  cases bucket with
  | swap =>
    show Table.swaps.decodeValue (Table.swaps.keyOf r) (Table.swaps.encodeValue r) = _
    rw [Table.decodeValue_swaps, Table.encodeValue_swaps, Table.keyOf_swaps]
    unfold Reader.decode
    rw [readSwap_writeSwap_of_nil hr]
  | exchange => exact hr.elim
  | account => exact hr.elim
  | token => exact hr.elim
  | pattern => exact hr.elim
  | cursor => exact hr.elim

end Bucket

/-! ## §2. Putting a record. -/

theorem Books.peek_put_self {κ ρ : Type} (b : Books) (t : Table κ ρ) (r : ρ) :
    (b.put t r).peek t (t.keyOf r) = t.decodeValue (t.keyOf r) (t.encodeValue r) := by
  unfold Books.peek
  rw [raw?_put_self]

/-- What a bucket answers once a record has been put into it that listed `rs` before:
the record under its key, and the list with the record, which takes the place of the
one with its key. -/
structure Books.Lists (b : Books) (bucket : Bucket) (r : bucket.Record)
    (rs : List bucket.Record) : Prop where
  peek : b.peek bucket.layout (bucket.layout.keyOf r) = .ok r
  all : ∃ rs', b.all bucket.layout = .ok rs'
    ∧ rs'.Perm (r :: rs.filter fun s => bucket.layout.keyOf s ≠ bucket.layout.keyOf r)

/-- What a bucket answers that holds a record it refuses: the fault, to both. -/
structure Books.Refuses (b : Books) (bucket : Bucket) (r : bucket.Record) (e : StoreError) :
    Prop where
  peek : b.peek bucket.layout (bucket.layout.keyOf r) = .error e
  all : b.all bucket.layout = .error e

/-- **After a put** the record is found and listed with the others, unless it is a swap
with an empty path.  Then neither it nor any other swap can be read from the list. -/
theorem listing_after_put {bucket : Bucket} {h h' : Handle} {now : Int64} {r : bucket.Record}
    {rs : List bucket.Record} (hsized : bucket.Sized r)
    (hall : h.books.all bucket.layout = .ok rs)
    (hput : h.update ((Change.put bucket r).apply now) = (.ok .done, h')) :
    (¬ bucket.Pathless r → h'.books.Lists bucket r rs)
      ∧ (bucket.Pathless r → h'.books.Refuses bucket r (.badValue .emptyPath)) := by
  have hbooks : h'.books = h.books.put bucket.layout r := by
    have hdone := Handle.update_ok (congrArg Prod.fst hput)
    rw [hput] at hdone
    exact (congrArg Prod.snd (Except.ok.inj hdone)).symm
  have hpeek := h.books.peek_put_self bucket.layout r
  rw [← hbooks] at hpeek
  constructor
  · intro hr
    have hkeeps := Bucket.keeps_of_storable (Bucket.storable_of_sized hsized hr)
    have hlist := Books.all_put bucket.keyed_layout Bucket.encodeKey_of_decodeKey hkeeps hall
    rw [← hbooks] at hlist
    exact ⟨hpeek.trans hkeeps, hlist⟩
  · intro hr
    have hfault := Bucket.decodeValue_of_pathless hr
    have hlist := Books.all_put_error bucket.keyed_layout hfault hall
    rw [← hbooks] at hlist
    exact ⟨hpeek.trans hfault, hlist⟩

/-- A swap of one token for itself. -/
def selfSwap : Swap := ⟨.zero, .zero, .zero, [.zero], .zero, 0, 0⟩

/-- The same swap, its path forgotten. -/
def pathlessSwap : Swap := { selfSwap with path := [] }

/-- On new books a swap is found and listed; put again without its path, it takes its
own place, and nothing can be listed any more. -/
theorem listing_after_put_pathless :
    let first := Handle.new.update ((Change.put .swap selfSwap).apply 0)
    let second := first.2.update ((Change.put .swap pathlessSwap).apply 0)
    first.2.books.all Table.swaps = .ok [selfSwap]
      ∧ second.1 = .ok .done
      ∧ second.2.books.all Table.swaps = .error (.badValue .emptyPath) := by
  intro first second
  have hfirst : first.2.books.Lists .swap selfSwap [] :=
    (@listing_after_put .swap .new first.2 0 selfSwap [] (Nat.one_lt_two_pow (by decide))
      rfl rfl).1 (List.cons_ne_nil _ _)
  obtain ⟨rs, hall, hperm⟩ := hfirst.all
  obtain rfl : rs = [selfSwap] := List.perm_singleton.mp hperm
  have hsecond : second.2.books.Refuses .swap pathlessSwap (.badValue .emptyPath) :=
    (@listing_after_put .swap first.2 second.2 0 pathlessSwap [selfSwap] (Nat.two_pow_pos 64)
      hall rfl).2 rfl
  exact ⟨hall, rfl, hsecond.all⟩

end FundTrail.Store
