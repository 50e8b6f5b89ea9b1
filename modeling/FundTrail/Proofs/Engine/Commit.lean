/-
  FundTrail.Proofs.Engine.Commit
  ──────────────────────────────
  **A BLOCK IS COMMITTED, OR NOTHING HAS HAPPENED.**

  `process_cases` says once what processing a block comes to; everything else
  about single blocks is read off it.  Either there is an error, and the store is
  the one from before, or the block was resolved against the books from before,
  its resolutions were booked on them, and the cursor was put on top.

  Main facts: `process_cases`, `store_process_of_error` and
  `lastProcessed_process`.
-/
import FundTrail.Proofs.Store.Records
import FundTrail.Engine.Process

namespace FundTrail

open FundTrail.Store

/-- What has happened when a block was committed. -/
structure Committed {σ : Type} (m : Market σ) (now : Int64) (batch : Batch) (e : Engine σ)
    (outcomes : List Outcome) (rs : List Resolution) (desk : Desk σ) (booked : Books) :
    Prop where
  /-- The store could be used, and written. -/
  open_ : e.store.poisoned = false
  writable : e.store.handle.access = .readWrite
  /-- The transactions were resolved against the books from before. -/
  resolved : resolveAll m e.exchanges e.settings e.store.handle.books [] batch.transactions
    ⟨e.chain, e.factories, [], []⟩ = (.ok rs, desk)
  /-- The resolutions were booked on them. -/
  booking : bookAll rs e.store.handle.books = .ok (outcomes, booked)
  /-- The cursor is the last that was put. -/
  after : e.process m now batch
    = (⟨.ok (Summary.ofOutcomes batch.number outcomes), desk.skips⟩,
      { e with
        chain := desk.chain
        factories := desk.factories
        store := { e.store with handle := { e.store.handle with
          books := booked.put .cursor ⟨batch.number, batch.hash, now⟩
          written := true } } })

section

variable {σ : Type} {m : Market σ} {now : Int64} {batch : Batch} {e : Engine σ}
  {outcomes : List Outcome} {rs : List Resolution} {desk : Desk σ} {booked : Books}

theorem Committed.result_eq (h : Committed m now batch e outcomes rs desk booked) :
    (e.process m now batch).1.result = .ok (Summary.ofOutcomes batch.number outcomes) := by
  rw [h.after]

theorem Committed.books_eq (h : Committed m now batch e outcomes rs desk booked) :
    (e.process m now batch).2.store.handle.books
      = booked.put .cursor ⟨batch.number, batch.hash, now⟩ := by
  rw [h.after]

end

namespace Store

variable {α : Type}

theorem Shared.books?_of_open {s : Shared} (h : s.poisoned = false) :
    s.books? = .ok s.handle.books := by
  unfold Shared.books?
  rw [h]
  rfl

theorem Shared.update_of_open {s : Shared} (h : s.poisoned = false) (work : Work StoreError α) :
    s.update work
      = ((s.handle.update work).1, { s with handle := (s.handle.update work).2 }) := by
  unfold Shared.update
  rw [if_neg (by rw [h]; decide)]

end Store

namespace Engine

variable {σ : Type}

theorem process_of_poisoned {m : Market σ} {now : Int64} {batch : Batch} {e : Engine σ}
    (h : e.store.poisoned = true) : e.process m now batch = (⟨.error .poisoned, []⟩, e) := by
  unfold process Shared.books?
  rw [h]
  rfl

section

variable {m : Market σ} {now : Int64} {batch : Batch} {e : Engine σ} {desk : Desk σ}

theorem process_of_unresolved {error : StoreError} (h : e.store.poisoned = false)
    (hr : resolveAll m e.exchanges e.settings e.store.handle.books [] batch.transactions
      ⟨e.chain, e.factories, [], []⟩ = (.error error, desk)) :
    e.process m now batch = (⟨.error error, desk.skips⟩,
      { e with chain := desk.chain, factories := desk.factories }) := by
  unfold process
  simp only [Shared.books?_of_open h, hr]

theorem process_of_resolved {rs : List Resolution} (h : e.store.poisoned = false)
    (hr : resolveAll m e.exchanges e.settings e.store.handle.books [] batch.transactions
      ⟨e.chain, e.factories, [], []⟩ = (.ok rs, desk)) :
    e.process m now batch
      = (⟨(e.store.handle.update (Booking.block now batch.header rs)).1.map
            (Summary.ofOutcomes batch.number), desk.skips⟩,
        { e with
          chain := desk.chain
          factories := desk.factories
          store := { e.store with
            handle := (e.store.handle.update (Booking.block now batch.header rs)).2 } }) := by
  unfold process
  simp only [Shared.books?_of_open h, hr, Shared.update_of_open h]

end

theorem bookBlock_of_error (now : Int64) (block : Header) {rs : List Resolution} {b : Books}
    {error : StoreError} (h : bookAll rs b = .error error) :
    bookBlock now block rs b = .error error := by
  rw [bookBlock_eq, h]
  rfl

theorem bookBlock_of_ok (now : Int64) (block : Header) {rs : List Resolution} {b booked : Books}
    {outcomes : List Outcome} (h : bookAll rs b = .ok (outcomes, booked)) :
    bookBlock now block rs b
      = .ok (outcomes, booked.put .cursor ⟨block.number, block.hash, now⟩) := by
  rw [bookBlock_eq, h]
  rfl

/-- A booking that goes through has written the cursor at least. -/
theorem edits_block_ne_nil {now : Int64} {block : Header} {rs : List Resolution} {b : Books}
    {p : List Outcome × Books} (h : bookBlock now block rs b = .ok p) :
    ((Booking.block now block rs).on b).1 ≠ [] := by
  rcases hon : (Booking.resolutions rs).on b with ⟨edits, error | outcomes⟩
  · rw [bookBlock_of_error now block (Work.run_of_error (congrArg Prod.snd hon))] at h
    exact nomatch h
  · unfold Booking.block
    rw [Work.on_bind_of_ok hon]
    exact List.append_ne_nil_of_right_ne_nil edits (List.cons_ne_nil _ _)

/-- A block is committed if it can be resolved and booked, and the store can be
written. -/
theorem committed_of_booked {m : Market σ} {now : Int64} {batch : Batch} {e : Engine σ}
    {outcomes : List Outcome} {rs : List Resolution} {desk : Desk σ} {booked : Books}
    (hopen : e.store.poisoned = false) (hwritable : e.store.handle.access = .readWrite)
    (hresolved : resolveAll m e.exchanges e.settings e.store.handle.books [] batch.transactions
      ⟨e.chain, e.factories, [], []⟩ = (.ok rs, desk))
    (hbooking : bookAll rs e.store.handle.books = .ok (outcomes, booked)) :
    Committed m now batch e outcomes rs desk booked := by
  refine ⟨hopen, hwritable, hresolved, hbooking, ?_⟩
  have hblock := bookBlock_of_ok now batch.header hbooking
  rw [process_of_resolved hopen hresolved,
    Handle.update_of_readWrite hblock hwritable (edits_block_ne_nil hblock)]
  rfl

/-- **What processing a block comes to.** -/
theorem process_cases (m : Market σ) (now : Int64) (batch : Batch) (e : Engine σ) :
    (∃ error, (e.process m now batch).1.result = .error error ∧
        (e.process m now batch).2.store = e.store) ∨
      ∃ outcomes rs desk booked, Committed m now batch e outcomes rs desk booked := by
  cases hp : e.store.poisoned with
  | true => exact .inl ⟨.poisoned, by rw [process_of_poisoned hp]; exact ⟨rfl, rfl⟩⟩
  | false =>
    rcases hr : resolveAll m e.exchanges e.settings e.store.handle.books [] batch.transactions
      ⟨e.chain, e.factories, [], []⟩ with ⟨error | rs, desk⟩
    · exact .inl ⟨error, by rw [process_of_unresolved hp hr]; exact ⟨rfl, rfl⟩⟩
    · rw [process_of_resolved hp hr]
      cases hb : bookAll rs e.store.handle.books with
      | error error =>
        -- the booking fails: the transaction is rolled back
        obtain ⟨error, hupdate⟩ :=
          Handle.update_of_run_error (bookBlock_of_error now batch.header hb)
        rw [hupdate]
        exact .inl ⟨error, rfl, rfl⟩
      | ok p =>
        obtain ⟨outcomes, booked⟩ := p
        have hblock := bookBlock_of_ok now batch.header hb
        cases ha : e.store.handle.access with
        | readOnly =>
          -- the booking would go through, but nothing may be written
          rw [Handle.update_of_refused ha (edits_block_ne_nil hblock)]
          exact .inl ⟨.readOnly, rfl, rfl⟩
        | readWrite =>
          exact .inr ⟨outcomes, rs, desk, booked, committed_of_booked hp ha hr hb⟩

/-- A block that is not committed leaves the store as it was. -/
theorem store_process_of_error {m : Market σ} {now : Int64} {batch : Batch} {e : Engine σ}
    {error : StoreError} (h : (e.process m now batch).1.result = .error error) :
    (e.process m now batch).2.store = e.store := by
  rcases e.process_cases m now batch with ⟨_, -, hs⟩ | ⟨_, _, _, _, hc⟩
  · exact hs
  · rw [hc.after] at h
    exact nomatch h

theorem committed_of_ok {m : Market σ} {now : Int64} {batch : Batch} {e : Engine σ}
    {summary : Summary} (h : (e.process m now batch).1.result = .ok summary) :
    ∃ outcomes rs desk booked, Committed m now batch e outcomes rs desk booked := by
  rcases e.process_cases m now batch with ⟨error, he, -⟩ | hc
  · rw [he] at h
    exact nomatch h
  · exact hc

theorem lastProcessed_of_put {e : Engine σ} {b : Books} {c : Cursor}
    (hopen : e.store.poisoned = false) (hbooks : e.store.handle.books = b.put .cursor c) :
    e.lastProcessed = .ok (some c) := by
  unfold lastProcessed
  rw [Shared.books?_of_open hopen, hbooks]
  exact Books.cursor?_put b c

/-- The cursor names the block that was committed last. -/
theorem lastProcessed_process {m : Market σ} {now : Int64} {batch : Batch} {e : Engine σ}
    {summary : Summary} (h : (e.process m now batch).1.result = .ok summary) :
    (e.process m now batch).2.lastProcessed
      = .ok (some ⟨batch.number, batch.hash, now⟩) := by
  obtain ⟨outcomes, rs, desk, booked, hc⟩ := committed_of_ok h
  rw [hc.after]
  exact lastProcessed_of_put hc.open_ rfl

end Engine

end FundTrail
