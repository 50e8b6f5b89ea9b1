/-
  FundTrail.Store.Handle
  ──────────────────────
  **HANDLES AND TRANSACTIONS.**

  Books are reached through a handle, which may be allowed to write or not.
  Writing happens in transactions: the work runs on its own draft of the books,
  and the draft becomes the books only if the work succeeds.  Whoever looks in
  the meantime sees the books as they were.

  A read-only handle begins the work as well.  It may fail for reasons of its own
  before it comes to writing, and it goes through if it never comes to that; but
  its first edit is refused, and nothing behind that edit is tried any more.

  Main facts: `update_error` and `update_ok`.
-/
import FundTrail.Store.Work

namespace FundTrail.Store

/-- What a handle may do. -/
inductive Access where
  | readWrite
  | readOnly
  deriving DecidableEq, Repr

/-- A handle on books. -/
structure Handle where
  access : Access
  /-- The books as last committed. -/
  books : Books
  /-- Whether anything has been committed through it. -/
  written : Bool
  deriving DecidableEq

namespace Handle

variable {α : Type}

/-- A handle on new books. -/
def new : Handle := ⟨.readWrite, .empty, false⟩

instance : Inhabited Handle := ⟨new⟩

/-- A second handle on the same books, which may only read. -/
def reader (h : Handle) : Handle := { h with access := .readOnly }

/-- Run work in a transaction of its own and commit it; if it fails, nothing has
happened. -/
def update (h : Handle) (work : Work StoreError α) : Except StoreError α × Handle :=
  let (edits, result) := work.on h.books
  if h.access = .readOnly ∧ edits ≠ [] then (.error .readOnly, h)
  else
    match result with
    | .error e => (.error e, h)
    | .ok x =>
        (.ok x, { h with
          books := h.books.edited edits
          written := h.written || !edits.isEmpty })

section

variable {h : Handle} {work : Work StoreError α}

theorem update_of_refused (ha : h.access = .readOnly) (hedits : (work.on h.books).1 ≠ []) :
    h.update work = (.error .readOnly, h) := by
  unfold update
  exact if_pos ⟨ha, hedits⟩

theorem update_of_error (hmay : h.access = .readOnly → (work.on h.books).1 = []) {e : StoreError}
    (he : (work.on h.books).2 = .error e) : h.update work = (.error e, h) := by
  unfold update
  simp only [he]
  exact if_neg fun hrefused => hrefused.2 (hmay hrefused.1)

theorem update_of_ok (hmay : h.access = .readOnly → (work.on h.books).1 = []) {x : α}
    (hx : (work.on h.books).2 = .ok x) :
    h.update work = (.ok x, { h with
      books := h.books.edited (work.on h.books).1
      written := h.written || !(work.on h.books).1.isEmpty }) := by
  unfold update
  simp only [hx]
  exact if_neg fun hrefused => hrefused.2 (hmay hrefused.1)

end

/-- Handles with the same rights answer alike where the work comes to the same and
either both or neither of them would be written. -/
theorem fst_update_congr {h h' : Handle} {work work' : Work StoreError α}
    (ha : h.access = h'.access) (hresult : (work.on h.books).2 = (work'.on h'.books).2)
    (hedits : (work.on h.books).1 = [] ↔ (work'.on h'.books).1 = []) :
    (h.update work).1 = (h'.update work').1 := by
  have hrefused : h.access = .readOnly ∧ (work.on h.books).1 ≠ []
      ↔ h'.access = .readOnly ∧ (work'.on h'.books).1 ≠ [] := by
    rw [ha, Ne, Ne, hedits]
  unfold update
  simp only [hrefused, hresult]
  split
  next => rfl
  next => cases (work'.on h'.books).2 <;> rfl

/-- Whatever the work comes to, nothing is written through a handle that may only
read. -/
theorem snd_update_of_readOnly {h : Handle} (ha : h.access = .readOnly)
    (work : Work StoreError α) : (h.update work).2 = h := by
  by_cases hedits : (work.on h.books).1 = []
  · cases hresult : (work.on h.books).2 with
    | error e => rw [update_of_error (fun _ => hedits) hresult]
    | ok x =>
      rw [update_of_ok (fun _ => hedits) hresult, hedits]
      show { h with books := h.books, written := h.written || false } = h
      rw [Bool.or_false]
  · rw [update_of_refused ha hedits]

/-- **What a transaction comes to.** -/
theorem update_cases (h : Handle) (work : Work StoreError α) :
    (∃ e, h.update work = (.error e, h)) ∨
      ∃ x, (work.on h.books).2 = .ok x ∧ h.update work = (.ok x, { h with
        books := h.books.edited (work.on h.books).1
        written := h.written || !(work.on h.books).1.isEmpty }) := by
  by_cases hrefused : h.access = .readOnly ∧ (work.on h.books).1 ≠ []
  · exact .inl ⟨.readOnly, update_of_refused hrefused.1 hrefused.2⟩
  · have hmay : h.access = .readOnly → (work.on h.books).1 = [] := fun ha =>
      Classical.byContradiction fun hedits => hrefused ⟨ha, hedits⟩
    cases hresult : (work.on h.books).2 with
    | error e => exact .inl ⟨e, update_of_error hmay hresult⟩
    | ok x => exact .inr ⟨x, rfl, update_of_ok hmay hresult⟩

/-- Work that fails, fails in a transaction, be it because nothing may be written. -/
theorem update_of_run_error {h : Handle} {work : Work StoreError α} {error : StoreError}
    (hw : work.run h.books = .error error) : ∃ error, h.update work = (.error error, h) := by
  rcases h.update_cases work with hfails | ⟨x, hx, -⟩
  · exact hfails
  · rw [Work.run_of_ok hx] at hw
    exact nomatch hw

/-- Work that goes through and edits anything is committed if it may be. -/
theorem update_of_readWrite {h : Handle} {work : Work StoreError α} {x : α} {books : Books}
    (hw : work.run h.books = .ok (x, books)) (ha : h.access = .readWrite)
    (hedits : (work.on h.books).1 ≠ []) :
    h.update work = (.ok x, { h with books, written := true }) := by
  have hmay : h.access = .readOnly → (work.on h.books).1 = [] := fun hread =>
    absurd (ha.symm.trans hread) (by decide)
  cases hresult : (work.on h.books).2 with
  | error error =>
    rw [Work.run_of_error hresult] at hw
    exact nomatch hw
  | ok y =>
    rw [Work.run_of_ok hresult] at hw
    obtain ⟨rfl, rfl⟩ := Prod.mk.inj (Except.ok.inj hw)
    rw [update_of_ok hmay hresult, List.isEmpty_eq_false_iff.mpr hedits, Bool.not_false,
      Bool.or_true]

/-- **A transaction that fails leaves the handle as it was.** -/
theorem update_error {h : Handle} {work : Work StoreError α} {e : StoreError}
    (he : (h.update work).1 = .error e) : (h.update work).2 = h := by
  rcases h.update_cases work with ⟨_, hupdate⟩ | ⟨_, _, hupdate⟩
  · rw [hupdate]
  · rw [hupdate] at he
    exact nomatch he

/-- A transaction that succeeds commits what its work has made of the books. -/
theorem update_ok {h : Handle} {work : Work StoreError α} {x : α}
    (hx : (h.update work).1 = .ok x) :
    work.run h.books = .ok (x, (h.update work).2.books) := by
  rcases h.update_cases work with ⟨_, hupdate⟩ | ⟨_, hresult, hupdate⟩
  · rw [hupdate] at hx
    exact nomatch hx
  · rw [hupdate] at hx ⊢
    obtain rfl := Except.ok.inj hx
    exact Work.run_of_ok hresult

end Handle

/-! ## A store that is shared. -/

/-- A handle shared by several users behind a lock.  When a user breaks off in
the middle of its work, the lock stays poisoned and nobody else gets in. -/
structure Shared where
  handle : Handle
  poisoned : Bool
  deriving DecidableEq

/-- The books, for a user who gets in. -/
def Shared.books? (s : Shared) : Except StoreError Books :=
  if s.poisoned then .error .poisoned else .ok s.handle.books

/-- Run a transaction as a user of the shared store. -/
def Shared.update {α : Type} (s : Shared) (work : Work StoreError α) :
    Except StoreError α × Shared :=
  if s.poisoned then (.error .poisoned, s)
  else
    let (x, handle) := s.handle.update work
    (x, { s with handle })

end FundTrail.Store
