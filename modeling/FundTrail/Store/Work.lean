/-
  FundTrail.Store.Work
  ────────────────────
  **WORK INSIDE A TRANSACTION.**

  Work reads a draft of the books and edits it, row by row.  It keeps a journal of
  its edits, also when it breaks off, and the draft is what the journal makes of
  the books: there is nothing that work could do to the books behind its journal's
  back.

  Main facts: `run_bind` — the draft is handed on from each piece of work to the
  next — and `made_revise`.
-/
import FundTrail.Store.Books

namespace FundTrail.Store

/-! ## §1. Edits. -/

/-- A row, and the bucket it is written into. -/
abbrev Write := Bucket × Row

/-- A record as a row of its bucket. -/
def Table.write {κ ρ : Type} (t : Table κ ρ) (r : ρ) : Write :=
  (t.bucket, t.encodeKey (t.keyOf r), t.encodeValue r)

/-- A single edit of the books. -/
inductive Edit where
  /-- Write a row. -/
  | set (write : Write)
  /-- Remove the row with this key, if it is there. -/
  | remove (bucket : Bucket) (key : Bytes)
  /-- Remove all rows of a bucket. -/
  | clear (bucket : Bucket)
  deriving DecidableEq

/-- What an edit makes of the books. -/
def Edit.apply : Edit → Books → Books
  | .set write, b => b.putRaw write.1 write.2.1 write.2.2
  | .remove bucket key, b => b.setRows bucket ((b.rows bucket).erase key)
  | .clear bucket, b => b.clear bucket

namespace Books

/-- The books after edits, one after the other. -/
def edited (b : Books) (edits : List Edit) : Books := edits.foldl (fun b e => e.apply b) b

theorem edited_append (b : Books) (edits more : List Edit) :
    b.edited (edits ++ more) = (b.edited edits).edited more :=
  List.foldl_append

end Books

/-! ## §2. Work. -/

/-- Work on a draft of the books. -/
structure Work (ε α : Type) where
  /-- The edits that it makes, in order, and what it comes to. -/
  on : Books → List Edit × Except ε α

namespace Work

variable {ε α β κ ρ : Type}

/-- Edit nothing. -/
def give (x : α) : Work ε α := ⟨fun _ => ([], .ok x)⟩

/-- Go on with the draft that the edits so far have made. -/
def andThen (x : Work ε α) (f : α → Work ε β) : Work ε β := ⟨fun b =>
  match x.on b with
  | (edits, .error e) => (edits, .error e)
  | (edits, .ok a) =>
      let (more, y) := (f a).on (b.edited edits)
      (edits ++ more, y)⟩

instance : Monad (Work ε) where
  pure := give
  bind := andThen

/-- Read the draft. -/
def read (f : Books → Except ε α) : Work ε α := ⟨fun b => ([], f b)⟩

/-- Make an edit. -/
def edit (e : Edit) : Work ε Unit := ⟨fun _ => ([e], .ok ())⟩

/-- Write a record, in place of the one with its key. -/
def put (t : Table κ ρ) (r : ρ) : Work ε Unit := edit (.set (t.write r))

/-- Remove the record with this key, if it is there. -/
def erase (t : Table κ ρ) (key : κ) : Work ε Unit := edit (.remove t.bucket (t.encodeKey key))

/-- Change the record with a key, or the fallback where there is none. -/
def revise (t : Table κ ρ) (key : κ) (fallback : ρ) (change : ρ → ρ) : Work StoreError Unit := do
  let r ← read fun b => b.findOr t key fallback
  put t (change r)

/-! ## §3. What work comes to. -/

section

variable {x : Work ε α} {f : α → Work ε β} {b : Books} {edits : List Edit}

theorem on_bind_of_error {e : ε} (h : x.on b = (edits, .error e)) :
    (x >>= f).on b = (edits, .error e) := by
  show (x.andThen f).on b = _
  unfold andThen
  simp only [h]

theorem on_bind_of_ok {a : α} (h : x.on b = (edits, .ok a)) :
    (x >>= f).on b
      = (edits ++ ((f a).on (b.edited edits)).1, ((f a).on (b.edited edits)).2) := by
  show (x.andThen f).on b = _
  unfold andThen
  simp only [h]

end

/-- The result, and the draft that the edits have made. -/
def run (x : Work ε α) (b : Books) : Except ε (α × Books) :=
  (x.on b).2.map fun a => (a, b.edited (x.on b).1)

theorem run_of_error {x : Work ε α} {b : Books} {e : ε} (h : (x.on b).2 = .error e) :
    x.run b = .error e := by
  unfold run
  rw [h]
  rfl

theorem run_of_ok {x : Work ε α} {b : Books} {a : α} (h : (x.on b).2 = .ok a) :
    x.run b = .ok (a, b.edited (x.on b).1) := by
  unfold run
  rw [h]
  rfl

theorem run_read (f : Books → Except ε α) (b : Books) :
    (read f).run b = (f b).map fun a => (a, b) := rfl

theorem run_put (t : Table κ ρ) (r : ρ) (b : Books) :
    (put t r : Work ε Unit).run b = .ok ((), b.put t r) := rfl

/-- **The draft is handed on.** -/
theorem run_bind (x : Work ε α) (f : α → Work ε β) (b : Books) :
    (x >>= f).run b = x.run b >>= fun p => (f p.1).run p.2 := by
  unfold run
  rcases hx : x.on b with ⟨edits, e | a⟩
  · rw [on_bind_of_error hx]
    rfl
  · -- a draft of a draft is one draft
    rw [on_bind_of_ok hx]
    simp only [Books.edited_append]
    rfl

/-- To read is to look at the draft as it is. -/
theorem run_read_bind (f : Books → Except ε α) (g : α → Work ε β) (b : Books) :
    (read f >>= g).run b = f b >>= fun a => (g a).run b := by
  rw [run_bind, run_read]
  cases f b <;> rfl

/-- What work that has nothing to report makes of the books. -/
def made (x : Work ε Unit) (b : Books) : Except ε Books := (x.run b).map Prod.snd

theorem made_bind (x : Work ε Unit) (y : Work ε Unit) (b : Books) :
    (do x; y : Work ε Unit).made b = x.made b >>= y.made := by
  show (x >>= fun _ => y).made b = x.made b >>= y.made
  unfold made
  rw [run_bind]
  cases x.run b <;> rfl

theorem made_read_bind (f : Books → Except ε α) (g : α → Work ε Unit) (b : Books) :
    (read f >>= g).made b = f b >>= fun a => (g a).made b := by
  unfold made
  rw [run_read_bind]
  cases f b <;> rfl

theorem made_revise (t : Table κ ρ) (key : κ) (fallback : ρ) (change : ρ → ρ) (b : Books) :
    (revise t key fallback change).made b = b.revise t key fallback change := by
  unfold revise
  rw [made_read_bind]
  unfold Books.revise
  cases b.findOr t key fallback <;> rfl

/-- Work that has nothing to report, and then a result. -/
theorem run_made_bind (x : Work ε Unit) (f : Work ε β) (b : Books) :
    (do x; f : Work ε β).run b = x.made b >>= f.run := by
  show (x >>= fun _ => f).run b = x.made b >>= f.run
  rw [run_bind]
  unfold made
  cases x.run b <;> rfl

end Work

end FundTrail.Store
