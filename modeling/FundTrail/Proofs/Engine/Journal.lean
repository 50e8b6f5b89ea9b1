/-
  FundTrail.Proofs.Engine.Journal
  ───────────────────────────────
  **THE EDITS OF A BLOCK, ONE AFTER THE OTHER.**

  What becomes of a block is told in terms of the books before and behind it.
  Inside its transaction, however, there are drafts: after each row that is
  written, also in a booking that breaks off later.  They are what the journal of
  the booking makes of the books, edit by edit.

  Main fact: `Engine.handle_process`.
-/
import FundTrail.Proofs.Engine.Commit

namespace FundTrail

open FundTrail.Store

namespace Engine

variable {σ : Type}

/-- The edits that processing a block makes in its transaction, in order, and
whether it goes on to commit them.  Nothing is edited before the whole block is
resolved. -/
def edits (m : Market σ) (now : Int64) (batch : Batch) (e : Engine σ) : List Edit × Bool :=
  match e.store.books?, e.store.handle.access with
  | .ok books, .readWrite =>
    match (resolveAll m e.exchanges e.settings books [] batch.transactions
        ⟨e.chain, e.factories, [], []⟩).1 with
    | .error _ => ([], false)
    | .ok rs =>
      let (edits, outcomes) := (Booking.block now batch.header rs).on books
      (edits, outcomes.isOk)
  | _, _ => ([], false)

section

variable {m : Market σ} {now : Int64} {batch : Batch} {e : Engine σ} {desk : Desk σ}

theorem edits_of_poisoned (h : e.store.poisoned = true) : e.edits m now batch = ([], false) := by
  unfold edits Shared.books?
  rw [h]
  rfl

theorem edits_of_readOnly (h : e.store.handle.access = .readOnly) :
    e.edits m now batch = ([], false) := by
  unfold edits
  rw [h]
  cases e.store.books? <;> rfl

theorem edits_of_unresolved {error : StoreError}
    (hr : resolveAll m e.exchanges e.settings e.store.handle.books [] batch.transactions
      ⟨e.chain, e.factories, [], []⟩ = (.error error, desk)) :
    e.edits m now batch = ([], false) := by
  cases ha : e.store.handle.access with
  | readOnly => exact edits_of_readOnly ha
  | readWrite =>
    cases hp : e.store.poisoned with
    | true => exact edits_of_poisoned hp
    | false =>
      unfold edits
      rw [Shared.books?_of_open hp, ha]
      simp only [hr]

theorem edits_of_resolved {rs : List Resolution} (hp : e.store.poisoned = false)
    (ha : e.store.handle.access = .readWrite)
    (hr : resolveAll m e.exchanges e.settings e.store.handle.books [] batch.transactions
      ⟨e.chain, e.factories, [], []⟩ = (.ok rs, desk)) :
    e.edits m now batch
      = (((Booking.block now batch.header rs).on e.store.handle.books).1,
        ((Booking.block now batch.header rs).on e.store.handle.books).2.isOk) := by
  unfold edits
  rw [Shared.books?_of_open hp, ha]
  simp only [hr]

end

/-- **The store after a block is its edits on top of the one before, or just that.** -/
theorem handle_process (m : Market σ) (now : Int64) (batch : Batch) (e : Engine σ) :
    ((e.edits m now batch).2 = false
        ∧ (e.process m now batch).2.store.handle = e.store.handle)
      ∨ ((e.edits m now batch).2 = true ∧ (e.edits m now batch).1 ≠ []
        ∧ (e.process m now batch).2.store.handle
          = { e.store.handle with
              books := e.store.handle.books.edited (e.edits m now batch).1
              written := true }) := by
  cases hp : e.store.poisoned with
  | true =>
    rw [process_of_poisoned hp, edits_of_poisoned hp]
    exact .inl ⟨rfl, rfl⟩
  | false =>
    rcases hr : resolveAll m e.exchanges e.settings e.store.handle.books [] batch.transactions
      ⟨e.chain, e.factories, [], []⟩ with ⟨error | rs, desk⟩
    -- no transaction has been opened
    · rw [process_of_unresolved hp hr, edits_of_unresolved hr]
      exact .inl ⟨rfl, rfl⟩
    · rw [process_of_resolved hp hr]
      cases ha : e.store.handle.access with
      | readOnly =>
        rw [edits_of_readOnly ha]
        exact .inl ⟨rfl, Handle.snd_update_of_readOnly ha _⟩
      | readWrite =>
        rw [edits_of_resolved hp ha hr]
        cases hresult : ((Booking.block now batch.header rs).on e.store.handle.books).2 with
        | error error =>
          obtain ⟨_, hupdate⟩ := Handle.update_of_run_error (Work.run_of_error hresult)
          rw [hupdate]
          exact .inl ⟨rfl, rfl⟩
        | ok outcomes =>
          have hrun := Work.run_of_ok hresult
          have hedits := edits_block_ne_nil hrun
          rw [Handle.update_of_readWrite hrun ha hedits]
          exact .inr ⟨rfl, hedits, rfl⟩

end Engine

end FundTrail
