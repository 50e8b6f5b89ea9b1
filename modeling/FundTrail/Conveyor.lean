/-
  FundTrail.Conveyor
  ──────────────────
  **SESSIONS IN WHICH THE BOOKING RUNS BEHIND THE STREAM.**

  The streamer puts blocks on a belt and goes on; another task takes them off
  and books them, in order.  How the two interleave is not determined, so it is
  left to a schedule.  A schedule that stops taking blocks off is a session that
  breaks off: what is still on the belt is lost.

  A block that cannot be booked stays where it is, and so does everything behind
  it; from then on the streamer finds nobody to take a block.

  What one session leaves behind for the next are the books, so a history is a
  list of sessions with the books passed on.

  Main definitions: `Conveyor.conduit`, `Plan.run` and `history`.
-/
import FundTrail.Session

namespace FundTrail

open FundTrail.Store

variable {σ : Type}

/-- How the booking keeps up, counted in moves of the streamer. -/
structure Schedule where
  /-- How many blocks may be taken off the belt after a move. -/
  pace : Nat → Nat
  /-- What time it is after a move. -/
  time : Nat → Int64

/-- An engine at the end of a belt. -/
structure Conveyor (σ : Type) where
  intake : Intake σ
  /-- The blocks that have been booked, in order. -/
  booked : List Batch
  /-- The blocks on the belt, the next one first. -/
  waiting : List Batch
  /-- The moves of the streamer so far. -/
  moves : Nat

namespace Conveyor

/-- Nothing is on the belt yet. -/
def start (e : Engine σ) : Conveyor σ := ⟨⟨e, .ok .zero⟩, [], [], 0⟩

/-- Take the next block off the belt and book it, unless an earlier one has
stopped ingestion. -/
def takeIn (m : Market σ) (now : Int64) (w : Conveyor σ) : Conveyor σ :=
  match w.intake.progress, w.waiting with
  | .ok totals, batch :: waiting =>
    match ingestBatch m now batch totals w.intake.engine with
    | (.ok totals, engine) =>
        { w with intake := ⟨engine, .ok totals⟩, booked := w.booked ++ [batch], waiting }
    | (.error halted, engine) => { w with intake := ⟨engine, .error halted⟩ }
  | _, _ => w

/-- Take up to `count` blocks off the belt. -/
def takeInMany (m : Market σ) (now : Int64) : Nat → Conveyor σ → Conveyor σ
  | 0, w => w
  | count + 1, w => takeInMany m now count (takeIn m now w)

/-- Another move of the streamer is over: the booking gets its turn. -/
def advance (m : Market σ) (schedule : Schedule) (w : Conveyor σ) : Conveyor σ :=
  takeInMany m (schedule.time w.moves) (schedule.pace w.moves) { w with moves := w.moves + 1 }

/-- Put a block on the belt, unless an earlier one has stopped ingestion. -/
def push (batch : Batch) (w : Conveyor σ) : Bool × Conveyor σ :=
  match w.intake.progress with
  | .error _ => (false, w)
  | .ok _ => (true, { w with waiting := w.waiting ++ [batch] })

/-- A question about blocks, put to the chain of the engine. -/
def asking (question : σ → Option (Except ChainError Batch) × σ) (w : Conveyor σ) :
    Option (Except ChainError Batch) × Conveyor σ :=
  let (answer, intake) := Session.asking question w.intake
  (answer, { w with intake })

/-- Blocks from the source, put on the belt. -/
def conduit (machine : Machine) (m : Market σ) (source : BlockSource σ)
    (schedule : Schedule) : Conduit (Conveyor σ) where
  machine
  byNumber number w :=
    let (answer, w) := asking (source.byNumber number) w
    (answer, w.advance m schedule)
  byHash hash w :=
    let (answer, w) := asking (source.byHash hash) w
    (answer, w.advance m schedule)
  deliver batch w :=
    let (taken, w) := push batch w
    (taken, w.advance m schedule)

end Conveyor

/-- Everything about a session but the books that it finds. -/
structure Plan (σ : Type) where
  market : Market σ
  source : BlockSource σ
  /-- The state of the chain when the session begins. -/
  chain : σ
  exchanges : ExchangeSet
  settings : Settings
  /-- What the session's handle on the books may do. -/
  access : Access
  streaming : StreamSettings
  rounds : List Round
  machine : Machine
  schedule : Schedule

namespace Plan

/-- The headers that are announced in the session. -/
def headers (p : Plan σ) : List Header := p.rounds.flatMap Streamer.headersOf

/-- The engine of the session. -/
def engine (p : Plan σ) (books : Books) : Engine σ :=
  .new p.exchanges p.settings ⟨⟨p.access, books, false⟩, false⟩ p.chain

/-- The stream of the session when it has run its course. -/
def stream (p : Plan σ) (books : Books) (next : Option Height) : Streamer (Conveyor σ) :=
  (Streamer.run (Conveyor.conduit p.machine p.market p.source p.schedule) p.streaming p.rounds
    (.new (.start (p.engine books)) next)).2

/-- Run the session on books that it finds: the blocks that it books, in order,
and the books that it leaves. -/
def run (p : Plan σ) (books : Books) : List Batch × Books :=
  match Session.resumeFrom p.machine.overflow (p.engine books) with
  | .error _ => ([], books)
  | .ok next =>
    let w := (p.stream books next).world
    (w.booked, w.intake.engine.store.handle.books)

end Plan

/-- Run one session after the other: the blocks that they book, in order, and
the books that the last one leaves. -/
def history : List (Plan σ) → Books → List Batch × Books
  | [], books => ([], books)
  | p :: ps, books =>
    let (booked, books) := p.run books
    let (rest, books) := history ps books
    (booked ++ rest, books)

end FundTrail
