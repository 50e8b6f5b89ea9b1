/-
  FundTrail.Stream.Backoff
  ────────────────────────
  **WAITING LONGER AND LONGER.**

  Between attempts to restore a subscription the waiting time doubles, up to a
  longest one, and after a number of attempts in a row there is no further one.
  A success resets the count.

  A little random time is added to a wait, up to a quarter of it.  The longest wait
  may be any span, so with the addition it may be longer than all of them, and that
  is a panic; nothing else depends on what is drawn.

  Main definitions: `Backoff.delay` and `Backoff.sleep`.
-/
import FundTrail.Overflow
import FundTrail.Span

namespace FundTrail

/-- A number of attempts. -/
abbrev Retries := Word 32

/-- The state of a sequence of attempts. -/
structure Backoff where
  initial : Span
  longest : Span
  maxRetries : Retries
  /-- The attempts since the last success. -/
  attempts : Nat
  /-- Whether a random time is added to each wait. -/
  jitter : Bool
  deriving DecidableEq, Repr

/-- There is no further attempt after `retries` of them. -/
structure RetriesExceeded where
  retries : Retries
  deriving DecidableEq, Repr

/-- The wording of the end of all attempts. -/
def RetriesExceeded.message (e : RetriesExceeded) : String :=
  s!"Maximum retry attempts exceeded ({e.retries.toNat})"

namespace Backoff

/-- No attempts yet. -/
def new (initial longest : Span) (maxRetries : Retries) : Backoff :=
  ⟨initial, longest, maxRetries, 0, true⟩

/-- The same, with nothing added to the waits. -/
def withoutJitter (b : Backoff) : Backoff := { b with jitter := false }

/-- The wait before the next attempt when the count does not forbid it: the
first wait doubled with every attempt, but never more than the longest one.
The factor itself stays below `2 ^ 32`. -/
def wait (b : Backoff) : Span :=
  match b.initial.times? (.clamp (2 ^ b.attempts)) with
  | some delay => delay.shorter b.longest
  | none => b.longest

/-- The wait before the next attempt, if there is one. -/
def delay (b : Backoff) : Except RetriesExceeded Span :=
  if b.attempts < b.maxRetries.toNat then .ok b.wait else .error ⟨b.maxRetries⟩

/-- The milliseconds that may be added to a wait: a quarter of what their number
comes to in 64 bits. -/
def spread (d : Span) : Nat := (Word.lowBits (d.nanos / 1000000) : Word 64).toNat / 4

/-- A wait with a random time added, which is none of those beyond the spread. -/
def lengthened (b : Backoff) (draw : Nat) (d : Span) : Option Span :=
  if b.jitter ∧ d.nanos ≠ 0 then d.plus? (.ofMillis (min draw (spread d))) else some d

/-- Wait, and count the attempt. -/
def sleep (b : Backoff) (draw : Nat) : Except (Stop RetriesExceeded) Backoff :=
  match b.delay with
  | .error e => .error (.failed e)
  | .ok d =>
    match b.lengthened draw d with
    | none => .error .panicked
    | some _ => .ok { b with attempts := b.attempts + 1 }

/-- A success: forget the attempts. -/
def reset (b : Backoff) : Backoff := { b with attempts := 0 }

end Backoff

end FundTrail
