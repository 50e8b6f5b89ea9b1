/-
  FundTrail.Session
  ─────────────────
  **A SESSION: STREAMING INTO THE BOOKS.**

  A session starts behind the last block that has been booked.  The blocks that
  the streamer hands over are processed one by one; when one cannot be booked,
  ingestion stops and takes no further block, so that the session ends with the
  cursor in front of that block and the next session begins there.
-/
import FundTrail.Ingestion
import FundTrail.Stream.Streamer

namespace FundTrail

open FundTrail.Store

/-- Where blocks come from. -/
structure BlockSource (σ : Type) where
  /-- Ask for a block by its number; none stands for no answer in time. -/
  byNumber : Height → σ → Option (Except ChainError Batch) × σ
  /-- Ask for a block by its hash; none stands for no answer in time. -/
  byHash : Hash → σ → Option (Except ChainError Batch) × σ

/-- An engine that takes in the blocks of a session. -/
structure Intake (σ : Type) where
  engine : Engine σ
  /-- The totals so far, or the block that has stopped ingestion. -/
  progress : Except IngestionHalted IngestionTotals

namespace Session

variable {σ : Type}

/-- Take a block in, unless an earlier one has stopped ingestion. -/
def deliver (m : Market σ) (now : Int64) (batch : Batch) (w : Intake σ) : Bool × Intake σ :=
  match w.progress with
  | .error _ => (false, w)
  | .ok totals =>
      let (progress, engine) := ingestBatch m now batch totals w.engine
      (true, ⟨engine, progress⟩)

/-- A question about blocks, put to the chain of the engine. -/
def asking (question : σ → Option (Except ChainError Batch) × σ) (w : Intake σ) :
    Option (Except ChainError Batch) × Intake σ :=
  let (answer, chain) := question w.engine.chain
  (answer, { w with engine := { w.engine with chain } })

/-- Blocks from the source, taken in by the engine. -/
def conduit (machine : Machine) (m : Market σ) (source : BlockSource σ) (now : Int64) :
    Conduit (Intake σ) where
  machine
  byNumber number := asking (source.byNumber number)
  byHash hash := asking (source.byHash hash)
  deliver := deliver m now

/-- The first height that has not been booked. -/
def resumeFrom (o : Overflow) (e : Engine σ) : Except (Stop StoreError) (Option Height) :=
  match e.lastProcessed with
  | .error error => .error (.failed error)
  | .ok none => .ok none
  | .ok (some cursor) =>
    match cursor.number.plus? o 1 with
    | some next => .ok (some next)
    | none => .error .panicked

/-- How a session went. -/
structure Report where
  resumedFrom : Option Height
  stream : Except (Stop StreamError) StreamStats
  ingestion : Except IngestionHalted IngestionTotals
  /-- The requests of the streamer. -/
  requests : List Request

/-- A session that panics before it has begun to stream. -/
def Report.unbegun : Report := ⟨none, .error .panicked, .ok .zero, []⟩

/-- Run a session through rounds of announcements. -/
def run (machine : Machine) (m : Market σ) (source : BlockSource σ) (now : Int64)
    (settings : StreamSettings) (rounds : List Round) (e : Engine σ) :
    Except StoreError Report × Engine σ :=
  match resumeFrom machine.overflow e with
  | .error (.failed error) => (.error error, e)
  | .error .panicked => (.ok .unbegun, e)
  | .ok next =>
      let (stream, s) := Streamer.run (conduit machine m source now) settings rounds
        (.new ⟨e, .ok .zero⟩ next)
      (.ok ⟨next, stream, s.world.progress, s.requests⟩, s.world.engine)

end Session

end FundTrail
