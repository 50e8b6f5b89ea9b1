/-
  FundTrail.Engine.Process
  ────────────────────────
  **ONE BLOCK AFTER THE OTHER.**

  An engine holds a share of the store, the chain, and what it knows of routers.
  To process a block is to resolve its transactions and to book the resolutions
  in one transaction; if either fails, the store is as it was.

  Main definitions: `Engine.process` and `Engine.processAll`.
-/
import FundTrail.Engine.Resolution
import FundTrail.Engine.Booking

namespace FundTrail

open FundTrail.Store

/-- What works off blocks. -/
structure Engine (σ : Type) where
  exchanges : ExchangeSet
  settings : Settings
  store : Shared
  chain : σ
  /-- The factories of routers, as far as they are known. -/
  factories : List (Address × Address)

/-- What is reported of a block. -/
structure Processed where
  result : Except StoreError Summary
  /-- The swaps that were skipped while they were resolved, in order. -/
  skips : List (Hash × SkipReason)

namespace Engine

variable {σ : Type}

/-- An engine that knows nothing of routers yet. -/
def new (exchanges : ExchangeSet) (settings : Settings) (store : Shared) (chain : σ) :
    Engine σ :=
  ⟨exchanges, settings, store, chain, []⟩

/-- An engine with other settings, which has forgotten all it knew. -/
def restart (e : Engine σ) (settings : Settings) : Engine σ :=
  new e.exchanges settings e.store e.chain

/-- The last block that has been booked. -/
def lastProcessed (e : Engine σ) : Except StoreError (Option Cursor) := do
  (← e.store.books?).cursor?

/-- Process a block; `now` is the time that the cursor is stamped with. -/
def process (m : Market σ) (now : Int64) (batch : Batch) (e : Engine σ) :
    Processed × Engine σ :=
  match e.store.books? with
  | .error error => (⟨.error error, []⟩, e)
  | .ok books =>
    let (resolved, desk) := resolveAll m e.exchanges e.settings books [] batch.transactions
      ⟨e.chain, e.factories, [], []⟩
    let e := { e with chain := desk.chain, factories := desk.factories }
    match resolved with
    | .error error => (⟨.error error, desk.skips⟩, e)
    | .ok rs =>
      let (booked, store) := e.store.update (Booking.block now batch.header rs)
      (⟨booked.map (Summary.ofOutcomes batch.number), desk.skips⟩, { e with store })

/-- Process blocks one after the other, each at its time, whether they can be
booked or not. -/
def processAll (m : Market σ) :
    List (Int64 × Batch) → Engine σ → List Processed × Engine σ
  | [], e => ([], e)
  | (now, batch) :: calls, e =>
    let (processed, e) := e.process m now batch
    let (rest, e) := processAll m calls e
    (processed :: rest, e)

end Engine

end FundTrail
