/-
  FundTrail.Stream.Streamer
  ─────────────────────────
  **FROM HEADERS TO BLOCKS, IN ORDER.**

  A node announces new blocks by their headers.  The streamer fetches the
  blocks and hands them over strictly by height: what has been handed over is
  never handed over again, and with backfill no height is passed by, unless a
  gap is longer than the limit.  A block that cannot be fetched is left for the
  next header, which asks again for everything from there on; without backfill
  it is dropped.

  The announcements come in rounds, because a subscription may fail or end.
  After each round the streamer waits and subscribes again; when several rounds
  in a row have announced nothing, it gives up.

  Heights and counts have 64 bits, and what becomes of one that needs more is up
  to the machine.

  Main definitions: `onHeader` — what one header brings about — and `run`.
-/
import FundTrail.Chain.Basic
import FundTrail.Stream.Backoff

namespace FundTrail

/-! ## §1. The surroundings. -/

/-- The machine on which a stream runs. -/
structure Machine where
  overflow : Overflow
  /-- What is drawn for the wait behind each subscription. -/
  draw : Nat → Nat

/-- Where blocks come from and who takes them. -/
structure Conduit (σ : Type) where
  machine : Machine
  /-- Ask for a block by its number; none stands for no answer in time. -/
  byNumber : Height → σ → Option (Except ChainError Batch) × σ
  /-- Ask for a block by its hash; none stands for no answer in time. -/
  byHash : Hash → σ → Option (Except ChainError Batch) × σ
  /-- Hand a block over, and say whether there is still somebody to take it. -/
  deliver : Batch → σ → Bool × σ

/-- A request to a node. -/
inductive Request where
  | subscribe
  | byNumber (number : Height)
  | byHash (hash : Hash)
  deriving DecidableEq, Repr

/-- One subscription. -/
inductive Round where
  /-- It fails. -/
  | refused
  /-- It announces some blocks, and ends. -/
  | headers (headers : List Header)
  deriving DecidableEq, Repr

/-- What can be set about streaming. -/
structure StreamSettings where
  fetchTimeout : Span
  initialDelay : Span
  maxDelay : Span
  maxRetries : Retries
  backfill : Bool
  maxBackfill : Height
  deriving DecidableEq, Repr

/-- Counts of a stream. -/
structure StreamStats where
  headers : Count
  handedOff : Count
  backfilled : Count
  dropped : Count
  resubscriptions : Count
  deriving DecidableEq, Repr

/-- What a stream counts. -/
inductive Counter where
  | headers
  | handedOff
  | backfilled
  | dropped
  | resubscriptions
  deriving DecidableEq, Repr

namespace StreamStats

/-- Nothing yet. -/
def zero : StreamStats := ⟨0, 0, 0, 0, 0⟩

/-- A single count. -/
def of (stats : StreamStats) : Counter → Count
  | .headers => stats.headers
  | .handedOff => stats.handedOff
  | .backfilled => stats.backfilled
  | .dropped => stats.dropped
  | .resubscriptions => stats.resubscriptions

/-- The counts with another one in the place of `k`. -/
def set (stats : StreamStats) (k : Counter) (count : Count) : StreamStats :=
  match k with
  | .headers => { stats with headers := count }
  | .handedOff => { stats with handedOff := count }
  | .backfilled => { stats with backfilled := count }
  | .dropped => { stats with dropped := count }
  | .resubscriptions => { stats with resubscriptions := count }

theorem of_zero (k : Counter) : zero.of k = 0 := by cases k <;> rfl

theorem of_set (stats : StreamStats) (j k : Counter) (count : Count) :
    (stats.set k count).of j = if j = k then count else stats.of j := by
  cases j <;> cases k <;> rfl

theorem of_set_self (stats : StreamStats) (k : Counter) (count : Count) :
    (stats.set k count).of k = count :=
  (of_set stats k k count).trans (if_pos rfl)

theorem of_set_of_ne (stats : StreamStats) {j k : Counter} (h : j ≠ k) (count : Count) :
    (stats.set k count).of j = stats.of j :=
  (of_set stats j k count).trans (if_neg h)

end StreamStats

/-- Why a stream has ended by itself. -/
inductive StreamError where
  /-- No subscription could be restored in so many attempts. -/
  | subscriptionLost (retries : Retries)
  /-- Nobody takes the blocks. -/
  | consumerClosed
  deriving DecidableEq, Repr

/-- The wording of the end of a stream. -/
def StreamError.message : StreamError → String
  | .subscriptionLost retries =>
      s!"header subscription lost after {retries.toNat} reconnect attempts"
  | .consumerClosed => "block consumer closed"

/-- The state of a stream in surroundings of type `σ`. -/
structure Streamer (σ : Type) where
  world : σ
  /-- The height that is handed over next; none until the first header. -/
  next : Option Height
  stats : StreamStats
  /-- The requests so far, in order. -/
  requests : List Request

/-- What a stream does: it ends with an answer, by itself, or in a panic. -/
abbrev Streaming (σ α : Type) : Type := Asking (Streamer σ) (Stop StreamError) α

namespace Streamer

variable {σ : Type}

/-- A stream that is about to begin at height `next`. -/
def new (world : σ) (next : Option Height) : Streamer σ := ⟨world, next, .zero, []⟩

/-! ## §2. Single steps. -/

/-- What a request without an answer comes to. -/
def inTime (limit : Span) (answer : Option (Except ChainError Batch)) :
    Except ChainError Batch :=
  answer.getD (.error (.timeout limit))

/-- Fetch a block by its number. -/
def fetchByNumber (c : Conduit σ) (limit : Span) (number : Height) :
    Streaming σ (Except ChainError Batch) := fun s =>
  let (answer, world) := c.byNumber number s.world
  (.ok (inTime limit answer), { s with world, requests := s.requests ++ [.byNumber number] })

/-- Fetch a block by its hash. -/
def fetchByHash (c : Conduit σ) (limit : Span) (hash : Hash) :
    Streaming σ (Except ChainError Batch) := fun s =>
  let (answer, world) := c.byHash hash s.world
  (.ok (inTime limit answer), { s with world, requests := s.requests ++ [.byHash hash] })

/-- Give a block to whoever takes it. -/
def deliver (c : Conduit σ) (batch : Batch) : Streaming σ Unit := fun s =>
  let (taken, world) := c.deliver batch s.world
  (if taken then .ok () else .error (.failed .consumerClosed), { s with world })

/-- Count so many more. -/
def count (c : Conduit σ) (k : Counter) (n : Nat) : Streaming σ Unit := fun s =>
  match (s.stats.of k).plus? c.machine.overflow n with
  | some total => (.ok (), { s with stats := s.stats.set k total })
  | none => (.error .panicked, s)

/-- From here on the height `due` is due. -/
def expect (due : Height) : Streaming σ Unit := fun s => (.ok (), { s with next := some due })

/-- From here on the height behind `number` is due. -/
def moveBehind (c : Conduit σ) (number : Height) : Streaming σ Unit :=
  match number.plus? c.machine.overflow 1 with
  | some due => expect due
  | none => .fail .panicked

/-- The height that is due: that of the announced block if it is not settled yet. -/
def settle (number : Height) : Streaming σ Height := fun s =>
  let next := s.next.getD number
  (.ok next, { s with next := some next })

/-! ## §3. One header. -/

/-- Hand a block over. -/
def handOff (c : Conduit σ) (batch : Batch) : Streaming σ Unit := do
  deliver c batch
  moveBehind c batch.number
  count c .handedOff 1

/-- Fetch and hand over `more` blocks from `number` on, up to the first that
cannot be fetched; say whether all have been. -/
def backfill (c : Conduit σ) (limit : Span) : Nat → Height → Streaming σ Bool
  | 0, _ => pure true
  | more + 1, number => do
    match ← fetchByNumber c limit number with
    | .error _ => pure false
    | .ok batch =>
      count c .backfilled 1
      handOff c batch
      backfill c limit more number.next

/-- Fetch and hand over the block that a header announces. -/
def announced (c : Conduit σ) (settings : StreamSettings) (header : Header) :
    Streaming σ Unit := do
  match ← fetchByHash c settings.fetchTimeout header.hash with
  | .ok batch => handOff c batch
  | .error _ =>
    if settings.backfill then pure ()
    else
      count c .dropped 1
      moveBehind c header.number

/-- The height from which blocks are fetched when `next` is due and `number` is
announced: as far back as the limit allows. -/
def backfillStart (maxBackfill next number : Height) : Height :=
  if number.toNat - next.toNat ≤ maxBackfill.toNat then next
  else Word.clamp (number.toNat - maxBackfill.toNat)

/-- Fetch and hand over what is missing from `next` on, as far as the limit allows,
and then the block that a header announces. -/
def caughtUp (c : Conduit σ) (settings : StreamSettings) (next : Height) (header : Header) :
    Streaming σ Unit := do
  let start := backfillStart settings.maxBackfill next header.number
  count c .dropped (start.toNat - next.toNat)
  match ← backfill c settings.fetchTimeout (header.number.toNat - start.toNat) start with
  | true => announced c settings header
  | false => pure ()

/-- Do what a header calls for. -/
def onHeader (c : Conduit σ) (settings : StreamSettings) (header : Header) :
    Streaming σ Unit := do
  count c .headers 1
  let next ← settle header.number
  if header.number < next then pure ()
  else if settings.backfill then caughtUp c settings next header
  else announced c settings header

/-- Do what headers call for, in order. -/
def onHeaders (c : Conduit σ) (settings : StreamSettings) : List Header → Streaming σ Unit
  | [] => pure ()
  | header :: headers => do
    onHeader c settings header
    onHeaders c settings headers

/-! ## §4. Rounds. -/

/-- The headers of a round. -/
def headersOf : Round → List Header
  | .refused => []
  | .headers headers => headers

/-- Subscribe. -/
def subscribe : Streaming σ Unit := fun s =>
  (.ok (), { s with requests := s.requests ++ [.subscribe] })

/-- Wait before the next attempt to subscribe, unless there is none. -/
def waitOut (c : Conduit σ) (backoff : Backoff) : Streaming σ Backoff := fun s =>
  match backoff.sleep (c.machine.draw (s.requests.count .subscribe)) with
  | .ok backoff => (.ok backoff, s)
  | .error (.failed e) => (.error (.failed (.subscriptionLost e.retries)), s)
  | .error .panicked => (.error .panicked, s)

/-- Run through a round, and wait behind it. -/
def throughRound (c : Conduit σ) (settings : StreamSettings) (backoff : Backoff)
    (round : Round) : Streaming σ Backoff := do
  subscribe
  onHeaders c settings (headersOf round)
  let backoff ← waitOut c (if (headersOf round).isEmpty then backoff else backoff.reset)
  count c .resubscriptions 1
  pure backoff

/-- Run through rounds, one after the other. -/
def through (c : Conduit σ) (settings : StreamSettings) :
    List Round → Backoff → Streaming σ Backoff
  | [], backoff => pure backoff
  | round :: rounds, backoff => do
    through c settings rounds (← throughRound c settings backoff round)

/-- Run through rounds, from the first subscription on.  Behind the last of them the
streamer subscribes once more and is told to stop. -/
def run (c : Conduit σ) (settings : StreamSettings) (rounds : List Round) :
    Streaming σ StreamStats := do
  let _ ← through c settings rounds
    (.new settings.initialDelay settings.maxDelay settings.maxRetries)
  subscribe
  fun s => (.ok s.stats, s)

end Streamer

end FundTrail
