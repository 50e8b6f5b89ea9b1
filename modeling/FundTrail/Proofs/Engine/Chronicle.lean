/-
  FundTrail.Proofs.Engine.Chronicle
  ─────────────────────────────────
  **WHAT HAS BEEN DONE ABOUT WHICH TRANSACTION.**

  The chronicle of a run lists the transactions of the blocks that were committed,
  each with its outcome.  The books are made by it: what holds of new books and no
  chronicle, and is carried on from one transaction to the next, holds of the books
  and the chronicle after every run, however the transactions were cut into blocks.

  A block resolves all its transactions before it books one of them.  Nevertheless
  each of them is resolved as if it had been told of the books in which it is
  booked; that is what makes it possible to carry on one by one.

  Main facts: `result_process`, `map_fst_chronicle` and `CarriedOn.processAll`.
-/
import FundTrail.Proofs.Engine.Onward

namespace FundTrail

open FundTrail.Store

variable {σ : Type}

/-! ## §1. The chronicle. -/

namespace Engine

/-- What is done about the transactions of a block, one by one, if it is committed. -/
def outcomes (m : Market σ) (now : Int64) (batch : Batch) (e : Engine σ) :
    Except StoreError (List Outcome) := do
  let books ← e.store.books?
  let rs ← (resolveAll m e.exchanges e.settings books [] batch.transactions
    ⟨e.chain, e.factories, [], []⟩).1
  (e.store.update (Booking.block now batch.header rs)).1

/-- The transactions of a block with their outcomes; none if it is not committed. -/
def entries (m : Market σ) (now : Int64) (batch : Batch) (e : Engine σ) :
    List (Transaction × Outcome) :=
  match e.outcomes m now batch with
  | .ok outcomes => batch.transactions.zip outcomes
  | .error _ => []

/-- The transactions of the blocks that are committed with their outcomes, in order. -/
def chronicle (m : Market σ) :
    List (Int64 × Batch) → Engine σ → List (Transaction × Outcome)
  | [], _ => []
  | (now, batch) :: calls, e =>
    e.entries m now batch ++ chronicle m calls (e.process m now batch).2

/-- The transactions of the blocks that are committed, in order. -/
def taken (m : Market σ) : List (Int64 × Batch) → Engine σ → List Transaction
  | [], _ => []
  | (now, batch) :: calls, e =>
    let (processed, e) := e.process m now batch
    match processed.result with
    | .ok _ => batch.transactions ++ taken m calls e
    | .error _ => taken m calls e

/-- The report on a block counts the outcomes. -/
theorem result_process (m : Market σ) (now : Int64) (batch : Batch) (e : Engine σ) :
    (e.process m now batch).1.result
      = (e.outcomes m now batch).map (Summary.ofOutcomes batch.number) := by
  unfold process outcomes
  cases e.store.books? with
  | error error => rfl
  | ok books =>
    show _ = Except.map _ ((resolveAll m e.exchanges e.settings books [] batch.transactions
      ⟨e.chain, e.factories, [], []⟩).1 >>= _)
    simp only
    cases (resolveAll m e.exchanges e.settings books [] batch.transactions
      ⟨e.chain, e.factories, [], []⟩).1 with
    | error error => rfl
    | ok rs => rfl

theorem exchanges_process (m : Market σ) (now : Int64) (batch : Batch) (e : Engine σ) :
    (e.process m now batch).2.exchanges = e.exchanges
      ∧ (e.process m now batch).2.settings = e.settings := by
  unfold process
  split
  next => exact ⟨rfl, rfl⟩
  next =>
    simp only
    split
    next => exact ⟨rfl, rfl⟩
    next => exact ⟨rfl, rfl⟩

theorem entries_of_error {m : Market σ} {now : Int64} {batch : Batch} {e : Engine σ}
    {error : StoreError} (h : (e.process m now batch).1.result = .error error) :
    e.entries m now batch = [] := by
  rw [result_process] at h
  unfold entries
  cases houtcomes : e.outcomes m now batch with
  | error _ => rfl
  | ok outcomes =>
    rw [houtcomes] at h
    exact nomatch h

end Engine

theorem Committed.outcomes_eq {m : Market σ} {now : Int64} {batch : Batch} {e : Engine σ}
    {outcomes : List Outcome} {rs : List Resolution} {desk : Desk σ} {booked : Books}
    (h : Committed m now batch e outcomes rs desk booked) :
    e.outcomes m now batch = .ok outcomes := by
  unfold Engine.outcomes
  rw [Shared.books?_of_open h.open_]
  show ((resolveAll m e.exchanges e.settings e.store.handle.books [] batch.transactions
    ⟨e.chain, e.factories, [], []⟩).1 >>= _) = _
  rw [h.resolved]
  show (e.store.update (Booking.block now batch.header rs)).1 = _
  have hblock := Engine.bookBlock_of_ok now batch.header h.booking
  rw [Shared.update_of_open h.open_,
    Handle.update_of_readWrite hblock h.writable (Engine.edits_block_ne_nil hblock)]

theorem Committed.entries_eq {m : Market σ} {now : Int64} {batch : Batch} {e : Engine σ}
    {outcomes : List Outcome} {rs : List Resolution} {desk : Desk σ} {booked : Books}
    (h : Committed m now batch e outcomes rs desk booked) :
    e.entries m now batch = batch.transactions.zip outcomes := by
  unfold Engine.entries
  rw [h.outcomes_eq]

/-! ## §2. One transaction after the other. -/

theorem ResolutionsOf.length_eq {exchanges : ExchangeSet} {minTransfer : Amount} {books : Books}
    {funded : List Address} {txs : List Transaction} {rs : List Resolution}
    (h : ResolutionsOf exchanges minTransfer books funded txs rs) : rs.length = txs.length := by
  induction h with
  | nil => rfl
  | cons _ _ ih => rw [List.length_cons, List.length_cons, ih]

theorem length_bookAll {rs : List Resolution} {b b' : Books} {outcomes : List Outcome}
    (h : bookAll rs b = .ok (outcomes, b')) : outcomes.length = rs.length := by
  induction rs generalizing b outcomes with
  | nil =>
    obtain ⟨rfl, rfl⟩ := Prod.mk.inj (Except.ok.inj h)
    rfl
  | cons r rs ih =>
    obtain ⟨outcome, rest, b₁, -, h₂, rfl⟩ := bookAll_cons_eq_ok h
    rw [List.length_cons, List.length_cons, ih h₂]

/-- The wallets that have been followed at the beginning of a block, or funded by it
so far, have their accounts in `b`. -/
def Caught (b₀ : Books) (funded : List Address) (b : Books) : Prop :=
  ∀ wallet, isFollowed b₀ funded wallet = true → isFollowed b [] wallet = true

section

variable {exchanges : ExchangeSet} {minTransfer : Amount} {b₀ b b' : Books}
  {funded : List Address} {tx : Transaction} {r : Resolution}

/-- What a transaction comes to, it comes to in the books in which it is booked. -/
theorem Resolution.Of.caught (hr : r.Of exchanges minTransfer b₀ funded tx)
    (hb : Caught b₀ funded b) : r.Of exchanges minTransfer b [] tx where
  funder := hr.funder
  transfer := hr.transfer
  swap hs := ⟨(hr.swap hs).1, hb _ (hr.swap hs).2⟩

theorem Caught.book (hb : Caught b₀ funded b) (hr : r.Of exchanges minTransfer b₀ funded tx)
    {outcome : Outcome} (h : book r b = .ok (outcome, b')) :
    Caught b₀ (r.funded ++ funded) b' := by
  have hwallet : ∀ {swap}, r = .swap swap → isFollowed b [] swap.wallet = true := by
    intro swap hs
    rw [(hr.swap hs).1.wallet]
    exact hb tx.sender (hr.swap hs).2
  intro wallet hfollowed
  rw [isFollowed_append, Bool.or_eq_true] at hfollowed
  rw [isFollowed_book hwallet h, Bool.or_eq_true]
  exact hfollowed.imp id (hb wallet)

end

/-- What is noted of a swap, if it is booked. -/
def Resolution.notes : Resolution → Outcome → List Swap
  | .swap s, .swap => [s.record]
  | _, _ => []

/-- The swaps in the books are those from before, and the one that is booked. -/
theorem all_book {exchanges : ExchangeSet} {r : Resolution} (hr : r.Sound exchanges)
    {b b' : Books} {outcome : Outcome} (h : book r b = .ok (outcome, b')) {swaps : List Swap}
    (hall : b.all .swaps = .ok swaps) :
    ∃ swaps', b'.all .swaps = .ok swaps' ∧ swaps'.Perm (r.notes outcome ++ swaps) := by
  rcases book_cases h with
    ⟨exchange, recipient, value, rfl, rfl, hbook⟩ | ⟨swap, rfl, hnew, rfl, hbook⟩
    | ⟨_, rfl, -, rfl, rfl⟩ | ⟨_, rfl, rfl, rfl⟩ | ⟨_, rfl, rfl, rfl⟩
  · rw [bookTransfer_eq] at hbook
    have hrows : b'.rows .swap = b.rows .swap := Books.rows_revise hbook (by decide)
    exact ⟨swaps, (Books.all_congr_rows (t := .swaps) hrows).trans hall, .refl _⟩
  · exact all_bookSwap (PricedSwap.Sound.keeps_record hr) hnew hall hbook
  · exact ⟨swaps, hall, .refl _⟩
  · exact ⟨swaps, hall, .refl _⟩
  · exact ⟨swaps, hall, .refl _⟩

/-- A swap is in the books if it has just been booked, or was there before. -/
theorem has_book {r : Resolution} {b b' : Books} {outcome : Outcome}
    (h : book r b = .ok (outcome, b')) (hash : Hash) :
    b'.has .swaps hash = true
      ↔ hash ∈ (r.notes outcome).map Swap.txHash ∨ b.has .swaps hash = true := by
  have hnothing : b.has .swaps hash = true
      ↔ hash ∈ ([] : List Swap).map Swap.txHash ∨ b.has .swaps hash = true :=
    (or_iff_right List.not_mem_nil).symm
  rcases book_cases h with
    ⟨exchange, recipient, value, rfl, rfl, hbook⟩ | ⟨swap, rfl, -, rfl, hbook⟩
    | ⟨_, rfl, -, rfl, rfl⟩ | ⟨_, rfl, rfl, rfl⟩ | ⟨_, rfl, rfl, rfl⟩
  · rw [bookTransfer_eq] at hbook
    rw [Books.has_congr_rows (t := .swaps) (Books.rows_revise hbook (by decide))]
    exact hnothing
  · rw [Books.has_congr_rows (t := .swaps) (rows_swap_bookSwap hbook),
      Books.has_put Table.keyed_swaps, Bool.or_eq_true, decide_eq_true_iff]
    show hash = swap.txHash ∨ _ ↔ hash ∈ [swap.txHash] ∨ _
    rw [List.mem_singleton]
  · exact hnothing
  · exact hnothing
  · exact hnothing

/-- A property of books and of what has been done is carried on: by whatever comes
of a transaction when it is booked, and by a cursor that moves. -/
structure CarriedOn (exchanges : ExchangeSet) (minTransfer : Amount)
    (P : Books → List (Transaction × Outcome) → Prop) : Prop where
  book : ∀ {b b' past tx r outcome}, P b past → r.Of exchanges minTransfer b [] tx →
    book r b = .ok (outcome, b') → P b' (past ++ [(tx, outcome)])
  cursor : ∀ {b past} (c : Cursor), P b past → P (b.put .cursor c) past

namespace CarriedOn

variable {exchanges : ExchangeSet} {minTransfer : Amount}
  {P : Books → List (Transaction × Outcome) → Prop}

theorem bookAll (hP : CarriedOn exchanges minTransfer P) {b₀ : Books} {funded : List Address}
    {txs : List Transaction} {rs : List Resolution}
    (hrs : ResolutionsOf exchanges minTransfer b₀ funded txs rs) {b b' : Books}
    {past : List (Transaction × Outcome)} {outcomes : List Outcome}
    (hcaught : Caught b₀ funded b) (hpast : P b past)
    (h : bookAll rs b = .ok (outcomes, b')) : P b' (past ++ txs.zip outcomes) := by
  induction hrs generalizing b past outcomes with
  | nil =>
    obtain ⟨rfl, rfl⟩ := Prod.mk.inj (Except.ok.inj h)
    rw [List.zip_nil_left, List.append_nil]
    exact hpast
  | @cons funded tx txs r rs hr _ ih =>
    obtain ⟨outcome, rest, b₁, h₁, h₂, rfl⟩ := bookAll_cons_eq_ok h
    have hfirst : P b₁ (past ++ [(tx, outcome)]) := hP.book hpast (hr.caught hcaught) h₁
    have hall := ih (hcaught.book hr h₁) hfirst h₂
    rw [List.append_assoc] at hall
    exact hall

variable {m : Market σ} (hm : m.Short)

include hm

theorem process (now : Int64) (batch : Batch) {e : Engine σ}
    (hP : CarriedOn e.exchanges e.settings.minTransfer P)
    {past : List (Transaction × Outcome)} (hpast : P e.store.handle.books past) :
    P (e.process m now batch).2.store.handle.books (past ++ e.entries m now batch) := by
  rcases e.process_cases m now batch with
    ⟨error, herror, hstore⟩ | ⟨outcomes, rs, desk, booked, hc⟩
  · rw [hstore, Engine.entries_of_error herror, List.append_nil]
    exact hpast
  · have hbooked : P booked (past ++ batch.transactions.zip outcomes) :=
      hP.bookAll (hc.resolutions hm) (fun _ hfollowed => hfollowed) hpast hc.booking
    rw [hc.after, hc.entries_eq]
    exact hP.cursor _ hbooked

/-- **What is carried on from transaction to transaction holds after every run.** -/
theorem processAll (calls : List (Int64 × Batch)) {e : Engine σ}
    (hP : CarriedOn e.exchanges e.settings.minTransfer P)
    (past : List (Transaction × Outcome)) (hpast : P e.store.handle.books past) :
    P (e.processAll m calls).2.store.handle.books (past ++ e.chronicle m calls) := by
  induction calls generalizing e past with
  | nil =>
    rw [show e.chronicle m [] = [] from rfl, List.append_nil]
    exact hpast
  | cons call calls ih =>
    obtain ⟨now, batch⟩ := call
    obtain ⟨hexchanges, hsettings⟩ := e.exchanges_process m now batch
    have hone := process hm now batch hP hpast
    rw [← hexchanges, ← hsettings] at hP
    have hrest := ih hP (past ++ e.entries m now batch) hone
    rw [List.append_assoc] at hrest
    exact hrest

end CarriedOn

/-! ## §3. The chronicle is complete. -/

section

variable {m : Market σ} (hm : m.Short)

include hm

theorem map_fst_entries {now : Int64} {batch : Batch} {e : Engine σ} {summary : Summary}
    (h : (e.process m now batch).1.result = .ok summary) :
    (e.entries m now batch).map Prod.fst = batch.transactions := by
  obtain ⟨outcomes, rs, desk, booked, hc⟩ := Engine.committed_of_ok h
  have hlength : outcomes.length = batch.transactions.length :=
    (length_bookAll hc.booking).trans (hc.resolutions hm).length_eq
  rw [hc.entries_eq]
  exact List.map_fst_zip (Nat.le_of_eq hlength.symm)

/-- The transactions in it are those that have been taken, in their order. -/
theorem map_fst_chronicle (calls : List (Int64 × Batch)) (e : Engine σ) :
    (e.chronicle m calls).map Prod.fst = e.taken m calls := by
  induction calls generalizing e with
  | nil => rfl
  | cons call calls ih =>
    obtain ⟨now, batch⟩ := call
    unfold Engine.chronicle Engine.taken
    rw [List.map_append, ih]
    simp only
    cases h : (e.process m now batch).1.result with
    | ok summary => rw [map_fst_entries hm h]
    | error error =>
      rw [Engine.entries_of_error h]
      rfl

end

end FundTrail
