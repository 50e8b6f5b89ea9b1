/-
  FundTrail.Proofs.Stream.Alike
  ─────────────────────────────
  **A STREAM SEES OF ITS SURROUNDINGS ONLY WHAT THEY ANSWER.**

  Two streams that are related go in lockstep if every single step, a fetch, a
  delivery or a count, is answered alike and leaves them related.  Then so does all
  that a header calls for (`Streamer.Lockstep.onHeaders`).

  Two conduits answer alike along a relation between their states if related
  states give the same answers and stay related.  Streams over such conduits
  then do the same, step by step: they make the same requests, count the same,
  and end the same way.

  Main facts: `Conduit.Alike.run`, and for a property of one conduit's states
  `Conduit.Keeps.run`.
-/
import FundTrail.Proofs.Chain.Asking
import FundTrail.Stream.Streamer

namespace FundTrail

variable {σ τ : Type}

/-! ## §1. Conduits and streams. -/

/-- Two conduits answer alike, on machines that do. -/
structure Conduit.Alike (R : σ → τ → Prop) (c : Conduit σ) (d : Conduit τ) : Prop where
  machine : c.machine = d.machine
  byNumber : ∀ number v w, R v w →
    (c.byNumber number v).1 = (d.byNumber number w).1
      ∧ R (c.byNumber number v).2 (d.byNumber number w).2
  byHash : ∀ hash v w, R v w →
    (c.byHash hash v).1 = (d.byHash hash w).1 ∧ R (c.byHash hash v).2 (d.byHash hash w).2
  deliver : ∀ batch v w, R v w →
    (c.deliver batch v).1 = (d.deliver batch w).1
      ∧ R (c.deliver batch v).2 (d.deliver batch w).2

/-- Two streams that differ in their surroundings only, and those are related. -/
structure Streamer.Beside (R : σ → τ → Prop) (s : Streamer σ) (t : Streamer τ) : Prop where
  world : R s.world t.world
  next : s.next = t.next
  stats : s.stats = t.stats
  requests : s.requests = t.requests

/-! ## §2. The steps of a stream. -/

namespace Streamer

/-- Streams that `R` relates take every single step of a header alike, and are related
after it. -/
structure Lockstep (R : Streamer σ → Streamer τ → Prop) (c : Conduit σ) (d : Conduit τ) :
    Prop where
  overflow : c.machine.overflow = d.machine.overflow
  fetchByNumber : ∀ limit number,
    Asking.Alike R (fetchByNumber c limit number) (fetchByNumber d limit number)
  fetchByHash : ∀ limit hash,
    Asking.Alike R (fetchByHash c limit hash) (fetchByHash d limit hash)
  deliver : ∀ batch, Asking.Alike R (deliver c batch) (deliver d batch)
  count : ∀ k n, k ≠ .resubscriptions → Asking.Alike R (count c k n) (count d k n)
  expect : ∀ due, Asking.Alike R (expect due) (expect due)
  settle : ∀ number, Asking.Alike R (settle number) (settle number)

namespace Lockstep

variable {R : Streamer σ → Streamer τ → Prop} {c : Conduit σ} {d : Conduit τ}

theorem moveBehind (h : Lockstep R c d) (number : Height) :
    Asking.Alike R (moveBehind c number) (moveBehind d number) := by
  unfold Streamer.moveBehind
  rw [h.overflow]
  split
  next due _ => exact h.expect due
  next => exact .fail Stop.panicked

theorem handOff (h : Lockstep R c d) (batch : Batch) :
    Asking.Alike R (handOff c batch) (handOff d batch) :=
  (h.deliver batch).bind fun _ => (h.moveBehind batch.number).bind fun _ =>
    h.count .handedOff 1 nofun

theorem backfill (h : Lockstep R c d) (limit : Span) (more : Nat) (number : Height) :
    Asking.Alike R (backfill c limit more number) (backfill d limit more number) := by
  induction more generalizing number with
  | zero => exact .pure true
  | succ more ih =>
    refine (h.fetchByNumber limit number).bind fun answer => ?_
    cases answer with
    | error e => exact .pure false
    | ok batch =>
      exact (h.count .backfilled 1 nofun).bind fun _ => (h.handOff batch).bind fun _ =>
        ih number.next

theorem announced (h : Lockstep R c d) (settings : StreamSettings) (header : Header) :
    Asking.Alike R (announced c settings header) (announced d settings header) := by
  refine (h.fetchByHash settings.fetchTimeout header.hash).bind fun answer => ?_
  cases answer with
  | ok batch => exact h.handOff batch
  | error e =>
    show Asking.Alike R (if settings.backfill then _ else _) (if settings.backfill then _ else _)
    split
    next => exact .pure ()
    next => exact (h.count .dropped 1 nofun).bind fun _ => h.moveBehind header.number

theorem caughtUp (h : Lockstep R c d) (settings : StreamSettings) (next : Height)
    (header : Header) :
    Asking.Alike R (caughtUp c settings next header) (caughtUp d settings next header) := by
  refine (h.count .dropped _ nofun).bind fun _ => ?_
  refine (h.backfill settings.fetchTimeout _ _).bind fun full => ?_
  cases full with
  | false => exact .pure ()
  | true => exact h.announced settings header

theorem onHeader (h : Lockstep R c d) (settings : StreamSettings) (header : Header) :
    Asking.Alike R (onHeader c settings header) (onHeader d settings header) := by
  refine (h.count .headers 1 nofun).bind fun _ => (h.settle header.number).bind fun next => ?_
  split
  next => exact .pure ()
  next =>
    split
    next => exact h.caughtUp settings next header
    next => exact h.announced settings header

theorem onHeaders (h : Lockstep R c d) (settings : StreamSettings) (headers : List Header) :
    Asking.Alike R (onHeaders c settings headers) (onHeaders d settings headers) := by
  induction headers with
  | nil => exact .pure ()
  | cons header headers ih => exact (h.onHeader settings header).bind fun _ => ih

end Lockstep

end Streamer

/-! ## §3. Conduits that answer alike. -/

namespace Conduit.Alike

open Streamer

variable {R : σ → τ → Prop} {c : Conduit σ} {d : Conduit τ}

theorem count (h : c.Alike R d) (k : Counter) (n : Nat) :
    Asking.Alike (Beside R) (count c k n) (count d k n) := by
  intro s t hst
  unfold Streamer.count
  rw [h.machine, hst.stats]
  split
  next => exact ⟨rfl, hst.world, hst.next, rfl, hst.requests⟩
  next => exact ⟨rfl, hst⟩

/-- **Streams over such conduits go in lockstep**, as long as they differ in their
surroundings only. -/
theorem lockstep (h : c.Alike R d) : Lockstep (Beside R) c d where
  overflow := congrArg Machine.overflow h.machine
  fetchByNumber limit number s t hst := by
    obtain ⟨ha, hw⟩ := h.byNumber number s.world t.world hst.world
    refine ⟨congrArg (fun answer => Except.ok (inTime limit answer)) ha, hw, hst.next,
      hst.stats, ?_⟩
    show s.requests ++ [_] = t.requests ++ [_]
    rw [hst.requests]
  fetchByHash limit hash s t hst := by
    obtain ⟨ha, hw⟩ := h.byHash hash s.world t.world hst.world
    refine ⟨congrArg (fun answer => Except.ok (inTime limit answer)) ha, hw, hst.next,
      hst.stats, ?_⟩
    show s.requests ++ [_] = t.requests ++ [_]
    rw [hst.requests]
  deliver batch s t hst := by
    obtain ⟨ha, hw⟩ := h.deliver batch s.world t.world hst.world
    refine ⟨?_, hw, hst.next, hst.stats, hst.requests⟩
    show (if _ then Except.ok () else _) = if _ then Except.ok () else _
    rw [ha]
  count k n _ := h.count k n
  expect due s t hst := ⟨rfl, hst.world, rfl, hst.stats, hst.requests⟩
  settle number s t hst := by
    unfold Streamer.settle
    rw [hst.next]
    exact ⟨rfl, hst.world, rfl, hst.stats, hst.requests⟩

theorem subscribe : Asking.Alike (Beside R) subscribe subscribe := by
  intro s t hst
  refine ⟨rfl, hst.world, hst.next, hst.stats, ?_⟩
  show s.requests ++ [_] = t.requests ++ [_]
  rw [hst.requests]

theorem waitOut (h : c.Alike R d) (backoff : Backoff) :
    Asking.Alike (Beside R) (waitOut c backoff) (waitOut d backoff) := by
  intro s t hst
  unfold Streamer.waitOut
  rw [h.machine, hst.requests]
  split
  next => exact ⟨rfl, hst⟩
  next => exact ⟨rfl, hst⟩
  next => exact ⟨rfl, hst⟩

theorem throughRound (h : c.Alike R d) (settings : StreamSettings) (backoff : Backoff)
    (round : Round) :
    Asking.Alike (Beside R) (throughRound c settings backoff round)
      (throughRound d settings backoff round) :=
  subscribe.bind fun _ => (h.lockstep.onHeaders settings (headersOf round)).bind fun _ =>
    (h.waitOut _).bind fun backoff => (h.count .resubscriptions 1).bind fun _ => .pure backoff

theorem through (h : c.Alike R d) (settings : StreamSettings) (rounds : List Round)
    (backoff : Backoff) :
    Asking.Alike (Beside R) (through c settings rounds backoff)
      (through d settings rounds backoff) := by
  induction rounds generalizing backoff with
  | nil => exact .pure backoff
  | cons round rounds ih =>
    exact (h.throughRound settings backoff round).bind fun backoff => ih backoff

/-- **Streams over conduits that answer alike do the same.** -/
theorem run (h : c.Alike R d) (settings : StreamSettings) (rounds : List Round) :
    Asking.Alike (Beside R) (run c settings rounds) (run d settings rounds) :=
  (h.through settings rounds _).bind fun _ => subscribe.bind fun _ _ _ hst =>
    ⟨congrArg Except.ok hst.stats, hst⟩

end Conduit.Alike

/-! ## §4. What the surroundings never lose. -/

/-- Whatever a conduit does, `P` stays true of its states. -/
structure Conduit.Keeps (P : σ → Prop) (c : Conduit σ) : Prop where
  byNumber : ∀ number w, P w → P (c.byNumber number w).2
  byHash : ∀ hash w, P w → P (c.byHash hash w).2
  deliver : ∀ batch w, P w → P (c.deliver batch w).2

/-- A conduit answers like itself, from equal states that have the property. -/
theorem Conduit.Keeps.alike {P : σ → Prop} {c : Conduit σ} (h : c.Keeps P) :
    c.Alike (fun v w => v = w ∧ P w) c := by
  refine ⟨rfl, ?_, ?_, ?_⟩
  · rintro number v w ⟨rfl, hp⟩
    exact ⟨rfl, rfl, h.byNumber number v hp⟩
  · rintro hash v w ⟨rfl, hp⟩
    exact ⟨rfl, rfl, h.byHash hash v hp⟩
  · rintro batch v w ⟨rfl, hp⟩
    exact ⟨rfl, rfl, h.deliver batch v hp⟩

/-- **What a conduit keeps, it keeps through a whole stream.** -/
theorem Conduit.Keeps.run {P : σ → Prop} {c : Conduit σ} (h : c.Keeps P)
    (settings : StreamSettings) (rounds : List Round) {s : Streamer σ} (hs : P s.world) :
    P (Streamer.run c settings rounds s).2.world :=
  (h.alike.run settings rounds s s ⟨⟨rfl, hs⟩, rfl, rfl, rfl⟩).2.world.2

end FundTrail
