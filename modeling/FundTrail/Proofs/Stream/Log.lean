/-
  FundTrail.Proofs.Stream.Log
  ───────────────────────────
  **A LOG OF WHAT A STREAM DOES.**

  A conduit that keeps a log (`Conduit.recorded`) tells what has been asked, what has
  been answered, and what has been handed over in between.  Such a log may be the one of
  a list of requests that has been followed: each block is handed over before the next
  one is asked for, and the first request that brings none is the last that is made.

  A stream counts as it goes, so the log tells as well by how much each count has gone
  up (`Since`); or where a count has got too high, which is as far as a checked build
  comes (`Burst`).

  Main facts: `Followed.append`, `Begun.of_followed` and `Since.trans`.
-/
import FundTrail.Proofs.Stream.Handover

namespace FundTrail

open Streamer

variable {σ : Type}

/-! ## §1. A log of what a stream does. -/

/-- There is always somebody to take a block. -/
def Conduit.Open (c : Conduit σ) : Prop := ∀ batch w, (c.deliver batch w).1 = true

/-- The heights of blocks. -/
def heights (batches : List Batch) : List Nat := batches.map fun b => b.number.toNat

theorem heights_append (l₁ l₂ : List Batch) : heights (l₁ ++ l₂) = heights l₁ ++ heights l₂ :=
  List.map_append

/-- Something that has happened between a stream and its surroundings. -/
inductive Incident where
  /-- A block was asked for; without an answer the time ran out. -/
  | fetched (request : Request) (answer : Option (Except ChainError Batch))
  | handedOver (batch : Batch)

/-- The blocks that have been handed over. -/
def batchesIn (log : List Incident) : List Batch :=
  log.filterMap fun
    | .handedOver batch => some batch
    | .fetched _ _ => none

theorem batchesIn_append (l₁ l₂ : List Incident) :
    batchesIn (l₁ ++ l₂) = batchesIn l₁ ++ batchesIn l₂ :=
  List.filterMap_append

/-- The conduit with a log of what has happened. -/
def Conduit.recorded (c : Conduit σ) : Conduit (σ × List Incident) where
  machine := c.machine
  byNumber number w :=
    let (answer, v) := c.byNumber number w.1
    (answer, v, w.2 ++ [.fetched (.byNumber number) answer])
  byHash hash w :=
    let (answer, v) := c.byHash hash w.1
    (answer, v, w.2 ++ [.fetched (.byHash hash) answer])
  deliver batch w :=
    let (taken, v) := c.deliver batch w.1
    (taken, v, if taken then w.2 ++ [.handedOver batch] else w.2)

/-- The log changes nothing. -/
theorem Conduit.recorded_alike (c : Conduit σ) :
    Conduit.Alike (fun w v => w = v.1) c c.recorded where
  machine := rfl
  byNumber := by
    rintro number w v rfl
    exact ⟨rfl, rfl⟩
  byHash := by
    rintro hash w v rfl
    exact ⟨rfl, rfl⟩
  deliver := by
    rintro batch w v rfl
    exact ⟨rfl, rfl⟩

/-! ## §2. Following a list of requests. -/

/-- A list of requests has been followed: each block that is given is handed over before
the next one is asked for, and behind the first request that brings none there are no
others. -/
inductive Followed : List Request → List Batch → List Incident → Prop
  /-- No requests are left. -/
  | all : Followed [] [] []
  /-- A request brings no block, or no answer. -/
  | failed {request : Request} {requests : List Request}
      {answer : Option (Except ChainError Batch)}
      (none_given : ∀ batch, answer ≠ some (.ok batch)) :
      Followed (request :: requests) [] [.fetched request answer]
  /-- A request brings a block. -/
  | given {request : Request} {requests : List Request} {batch : Batch}
      {batches : List Batch} {log : List Incident} (rest : Followed requests batches log) :
      Followed (request :: requests) (batch :: batches)
        (.fetched request (some (.ok batch)) :: .handedOver batch :: log)

namespace Followed

variable {requests more : List Request} {batches others : List Batch}
  {log after : List Incident}

/-- The blocks are those that have been handed over. -/
theorem batchesIn_eq (h : Followed requests batches log) : batchesIn log = batches := by
  induction h with
  | all => rfl
  | failed none_given => rfl
  | given rest ih => exact congrArg (_ :: ·) ih

theorem length_le (h : Followed requests batches log) : batches.length ≤ requests.length := by
  induction h with
  | all => exact Nat.le_refl 0
  | failed none_given => exact Nat.zero_le _
  | given rest ih => exact Nat.succ_le_succ ih

/-- When all requests have brought a block, others can be followed. -/
theorem append (h : Followed requests batches log) (hall : batches.length = requests.length)
    (g : Followed more others after) :
    Followed (requests ++ more) (batches ++ others) (log ++ after) := by
  induction h with
  | all => exact g
  | failed none_given => exact nomatch hall
  | given rest ih => exact .given (ih (Nat.succ.inj hall))

/-- When one has not, no others are made. -/
theorem append_of_ne (h : Followed requests batches log)
    (hfailed : batches.length ≠ requests.length) (more : List Request) :
    Followed (requests ++ more) batches log := by
  induction h with
  | all => exact absurd rfl hfailed
  | failed none_given => exact .failed none_given
  | given rest ih => exact .given (ih fun h => hfailed (congrArg Nat.succ h))

end Followed

/-- A beginning has been made with following a list of requests. -/
def Begun (requests : List Request) (log : List Incident) : Prop :=
  ∃ batches rest, Followed requests batches (log ++ rest)

namespace Begun

variable {requests more : List Request} {log after : List Incident} {request : Request}
  {batch : Batch}

theorem nil : (requests : List Request) → Begun requests []
  | [] => ⟨[], [], .all⟩
  | request :: _ => ⟨[], [.fetched request none], .failed nofun⟩

theorem of_all {batches : List Batch} (h : Followed requests batches log) :
    Begun requests log :=
  ⟨batches, [], (List.append_nil log).symm ▸ h⟩

/-- Breaking off behind an answer. -/
theorem fetched (request : Request) (requests : List Request)
    (answer : Option (Except ChainError Batch)) :
    Begun (request :: requests) [.fetched request answer] := by
  rcases answer with _ | _ | batch
  · exact ⟨[], [], .failed nofun⟩
  · exact ⟨[], [], .failed nofun⟩
  · obtain ⟨batches, rest, h⟩ := nil requests
    exact ⟨_, _, .given h⟩

theorem given (h : Begun requests log) :
    Begun (request :: requests)
      (.fetched request (some (.ok batch)) :: .handedOver batch :: log) := by
  obtain ⟨batches, rest, h⟩ := h
  exact ⟨_, rest, .given h⟩

/-- There may be other requests to come. -/
theorem append (h : Begun requests log) (more : List Request) : Begun (requests ++ more) log := by
  obtain ⟨batches, rest, h⟩ := h
  by_cases hall : batches.length = requests.length
  · obtain ⟨others, after, hmore⟩ := nil more
    refine ⟨batches ++ others, rest ++ after, ?_⟩
    rw [← List.append_assoc]
    exact h.append hall hmore
  · exact ⟨batches, rest, h.append_of_ne hall more⟩

/-- When all requests have brought a block, a beginning can be made with others. -/
theorem of_followed {batches : List Batch} (h : Followed requests batches log)
    (hall : batches.length = requests.length) (g : Begun more after) :
    Begun (requests ++ more) (log ++ after) := by
  obtain ⟨others, rest, g⟩ := g
  refine ⟨batches ++ others, rest, ?_⟩
  rw [List.append_assoc]
  exact h.append hall g

end Begun

/-! ## §3. Counting. -/

/-- What is counted at an incident, one for each entry.  A block that was fetched by its
number is one that was missing; one that was not brought is only dropped without
backfill. -/
def Incident.counted (backfill : Bool) : Incident → List Counter
  | .handedOver _ => [.handedOff]
  | .fetched (.byNumber _) (some (.ok _)) => [.backfilled]
  | .fetched _ (some (.ok _)) => []
  | .fetched _ _ => if backfill then [] else [.dropped]

/-- What is counted in the course of a log. -/
def countedIn (backfill : Bool) (log : List Incident) : List Counter :=
  log.flatMap (Incident.counted backfill)

theorem countedIn_append (backfill : Bool) (log more : List Incident) :
    countedIn backfill (log ++ more) = countedIn backfill log ++ countedIn backfill more :=
  List.flatMap_append

/-- Every block that is handed over is counted, and nothing else is counted as such. -/
theorem count_handedOff_countedIn (backfill : Bool) (log : List Incident) :
    (countedIn backfill log).count .handedOff = (batchesIn log).length := by
  have hone : ∀ incident : Incident,
      (incident.counted backfill).count .handedOff = (batchesIn [incident]).length := by
    rintro (⟨_ | _ | _, _ | _ | _⟩ | _) <;> cases backfill <;> rfl
  induction log with
  | nil => rfl
  | cons incident log ih =>
    show (incident.counted backfill ++ countedIn backfill log).count _
      = (batchesIn ([incident] ++ log)).length
    rw [List.count_append, hone, ih, batchesIn_append, List.length_append]

/-- With backfill no single block is dropped. -/
theorem count_dropped_countedIn (log : List Incident) :
    (countedIn true log).count .dropped = 0 := by
  have hone : ∀ incident : Incident, (incident.counted true).count .dropped = 0 := by
    rintro (⟨_ | _ | _, _ | _ | _⟩ | _) <;> rfl
  induction log with
  | nil => rfl
  | cons incident log ih =>
    show (incident.counted true ++ countedIn true log).count _ = _
    rw [List.count_append, hone, ih]

/-- At each incident one thing is counted at most. -/
theorem Incident.length_counted_le (backfill : Bool) (incident : Incident) :
    (incident.counted backfill).length ≤ 1 := by
  rcases incident with ⟨_ | _ | _, _ | _ | _⟩ | _ <;> cases backfill <;>
    exact Nat.le_of_ble_eq_true rfl

/-- No count goes up by more than one for each request that is followed. -/
theorem Followed.count_countedIn_le {requests : List Request} {batches : List Batch}
    {log : List Incident} (h : Followed requests batches log) (backfill : Bool) (k : Counter) :
    (countedIn backfill log).count k ≤ requests.length := by
  induction h with
  | all => exact Nat.le_refl 0
  | @failed request requests answer none_given =>
    have hone := (Incident.fetched request answer).length_counted_le backfill
    show (Incident.counted backfill _ ++ []).count k ≤ requests.length + 1
    rw [List.append_nil]
    exact Nat.le_trans (Nat.le_trans List.count_le_length hone) (Nat.succ_le_succ (Nat.zero_le _))
  | @given request requests batch batches log rest ih =>
    -- the block is counted when it comes and when it is handed over, but as different things
    have hone : (countedIn backfill
        [.fetched request (some (.ok batch)), .handedOver batch]).count k ≤ 1 := by
      cases request <;> cases k <;> exact Nat.le_of_ble_eq_true rfl
    show (countedIn backfill ([_, _] ++ log)).count k ≤ requests.length + 1
    rw [countedIn_append, List.count_append]
    omega

theorem Begun.count_countedIn_le {requests : List Request} {log : List Incident}
    (h : Begun requests log) (backfill : Bool) (k : Counter) :
    (countedIn backfill log).count k ≤ requests.length := by
  obtain ⟨batches, rest, h⟩ := h
  have hall := h.count_countedIn_le backfill k
  rw [countedIn_append, List.count_append] at hall
  omega

/-- From `s` to `t` this has happened, and these counts have gone up. -/
structure Since (o : Overflow) (s : Streamer (σ × List Incident)) (log : List Incident)
    (counted : List Counter) (t : Streamer (σ × List Incident)) : Prop where
  log : t.world.2 = s.world.2 ++ log
  counts : ∀ k, (s.stats.of k).plus? o (counted.count k) = some (t.stats.of k)

/-- From `s` to `t` this has happened, and the last of these counts does not fit. -/
structure Burst (o : Overflow) (s : Streamer (σ × List Incident)) (log : List Incident)
    (counted : List Counter) (t : Streamer (σ × List Incident)) : Prop where
  log : t.world.2 = s.world.2 ++ log
  counts : ∃ k, (s.stats.of k).plus? o (counted.count k) = none

namespace Since

variable {o : Overflow} {s t u : Streamer (σ × List Incident)} {log more : List Incident}
  {counted others : List Counter}

theorem refl (o : Overflow) (s : Streamer (σ × List Incident)) : Since o s [] [] s :=
  ⟨(List.append_nil _).symm, fun _ => Word.plus?_zero⟩

theorem trans (h : Since o s log counted t) (g : Since o t more others u) :
    Since o s (log ++ more) (counted ++ others) u where
  log := by rw [g.log, h.log, List.append_assoc]
  counts k := by rw [List.count_append, ← Word.plus?_plus? (h.counts k), g.counts k]

theorem burst (h : Since o s log counted t) (g : Burst o t more others u) :
    Burst o s (log ++ more) (counted ++ others) u where
  log := by rw [g.log, h.log, List.append_assoc]
  counts := by
    obtain ⟨k, hk⟩ := g.counts
    exact ⟨k, by rw [List.count_append, ← Word.plus?_plus? (h.counts k), hk]⟩

/-- The requests of a stream and the height that is due are no concern of these. -/
theorem congr (h : Since o s log counted t) (hworld : u.world.2 = t.world.2)
    (hstats : u.stats = t.stats) : Since o s log counted u where
  log := hworld.trans h.log
  counts := by rw [hstats]; exact h.counts

end Since

end FundTrail
