/-
  FundTrail.Ingestion
  ───────────────────
  **BLOCKS IN A ROW, UP TO THE FIRST THAT CANNOT BE BOOKED.**

  A block that cannot be booked stops ingestion: a later block would move the
  cursor past it.  So what has been booked is always the longest good start of
  what has been sent.

  Main definition: `ingest`, which gives the totals over the blocks that were
  booked, or names the block that was not.
-/
import FundTrail.Engine.Process

namespace FundTrail

open FundTrail.Store

/-- Totals over booked blocks. -/
structure IngestionTotals where
  batches : Nat
  transfers : Nat
  swaps : Nat
  skipped : Nat
  deriving DecidableEq, Repr

namespace IngestionTotals

/-- No blocks. -/
def zero : IngestionTotals := ⟨0, 0, 0, 0⟩

/-- One more block. -/
def add (t : IngestionTotals) (s : Summary) : IngestionTotals :=
  ⟨t.batches + 1, t.transfers + s.transfers, t.swaps + s.swaps, t.skipped + s.skipped⟩

end IngestionTotals

/-- Ingestion has stopped at a block. -/
structure IngestionHalted where
  block : Height
  error : StoreError
  /-- The totals over the blocks before it. -/
  totals : IngestionTotals
  deriving DecidableEq, Repr

/-- The wording of a halt. -/
def IngestionHalted.message (h : IngestionHalted) : String :=
  s!"block {h.block.toNat} could not be committed: " ++ h.error.message

variable {σ : Type}

/-- Take in one block, unless an earlier one has stopped ingestion. -/
def ingestBatch (m : Market σ) (now : Int64) (batch : Batch)
    (totals : IngestionTotals) (e : Engine σ) :
    Except IngestionHalted IngestionTotals × Engine σ :=
  let (processed, e) := e.process m now batch
  match processed.result with
  | .ok summary => (.ok (totals.add summary), e)
  | .error error => (.error ⟨batch.number, error, totals⟩, e)

/-- Take in blocks on top of those in `totals`. -/
def ingestFrom (m : Market σ) (now : Int64) :
    List Batch → IngestionTotals → Engine σ →
      Except IngestionHalted IngestionTotals × Engine σ
  | [], totals, e => (.ok totals, e)
  | batch :: batches, totals, e =>
    match ingestBatch m now batch totals e with
    | (.ok totals, e) => ingestFrom m now batches totals e
    | (.error halted, e) => (.error halted, e)

/-- Take in blocks, in order. -/
def ingest (m : Market σ) (now : Int64) (batches : List Batch) (e : Engine σ) :
    Except IngestionHalted IngestionTotals × Engine σ :=
  ingestFrom m now batches .zero e

end FundTrail
