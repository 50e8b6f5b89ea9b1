/-
  FundTrail.Proofs.Stream.Delays
  ──────────────────────────────
  **HOW LONG EACH WAIT IS.**

  The factor stops short of `2 ^ 32`, the product may be too long for a span, and the
  longest wait cuts off what is left.  All three come to one formula: a wait is as long
  as the first one times the factor, or as the longest one, if that is shorter.  A
  product that is no span is longer than every span, so the longest wait is right there.

  The attempts that the formula is about are the waits since the last reset, whatever
  has been called in between, and there are never more of them than retries.

  What is drawn at random makes a wait longer, and can only do harm if the longest wait
  is close to the longest span (`isSome_lengthened`).

  Main facts: `nanos_wait`, `Tracks.answer` and `delays_exact`.
-/
import FundTrail.Config.Stream

namespace FundTrail

namespace Backoff

/-! ## §1. One wait. -/

/-- **The length of a wait.** -/
theorem nanos_wait (b : Backoff) : b.wait.nanos
    = min (b.initial.nanos * min (2 ^ b.attempts) (2 ^ 32 - 1)) b.longest.nanos := by
  unfold wait
  split
  next delay hdelay =>
    have hproduct : delay.nanos = b.initial.nanos * min (2 ^ b.attempts) (2 ^ 32 - 1) :=
      Span.times?_eq_some_iff.mp hdelay
    rw [Span.nanos_shorter, hproduct]
  next hdelay =>
    -- what is too long for a span is longer than the longest wait
    have hproduct : 2 ^ 64 * nanosPerSecond
        ≤ b.initial.nanos * min (2 ^ b.attempts) (2 ^ 32 - 1) := Span.times?_eq_none_iff.mp hdelay
    exact (Nat.min_eq_right (Nat.le_trans (Nat.le_of_lt b.longest.nanos_lt) hproduct)).symm

theorem delay_eq_error_iff {b : Backoff} {e : RetriesExceeded} :
    b.delay = .error e ↔ b.maxRetries.toNat ≤ b.attempts ∧ e = ⟨b.maxRetries⟩ := by
  unfold delay
  split
  next h => exact ⟨nofun, fun he => absurd h (Nat.not_lt.mpr he.1)⟩
  next h => exact ⟨fun he => ⟨Nat.not_lt.mp h, (Except.error.inj he).symm⟩, fun he => he.2 ▸ rfl⟩

theorem delay_eq_ok_iff {b : Backoff} {d : Span} :
    b.delay = .ok d ↔ b.attempts < b.maxRetries.toNat ∧ d = b.wait := by
  unfold delay
  split
  next h => exact ⟨fun hd => ⟨h, (Except.ok.inj hd).symm⟩, fun hd => hd.2 ▸ rfl⟩
  next h => exact ⟨nofun, fun hd => absurd hd.1 h⟩

/-- After more attempts the wait is not shorter. -/
theorem wait_le_wait {b : Backoff} {j k : Nat} (h : j ≤ k) :
    { b with attempts := j }.wait ≤ { b with attempts := k }.wait := by
  have hpow : 2 ^ j ≤ 2 ^ k := Nat.pow_le_pow_right (by decide) h
  have hfactor : min (2 ^ j) (2 ^ 32 - 1) ≤ min (2 ^ k) (2 ^ 32 - 1) := by omega
  have hproduct := Nat.mul_le_mul_left b.initial.nanos hfactor
  show Span.nanos _ ≤ Span.nanos _
  rw [nanos_wait, nanos_wait]
  exact Nat.le_min.mpr ⟨Nat.le_trans (Nat.min_le_left _ _) hproduct, Nat.min_le_right _ _⟩

theorem wait_le_longest (b : Backoff) : b.wait ≤ b.longest := by
  show Span.nanos _ ≤ _
  rw [nanos_wait]
  exact Nat.min_le_right _ _

/-- The first wait is the initial one, unless that is longer than the longest. -/
theorem wait_of_attempts_zero {b : Backoff} (h : b.attempts = 0) (hle : b.initial ≤ b.longest) :
    b.wait = b.initial := by
  have hfactor : min (2 ^ b.attempts) (2 ^ 32 - 1) = 1 := by
    rw [h]
    decide
  refine Span.ext ?_
  rw [nanos_wait, hfactor, Nat.mul_one]
  exact Nat.min_eq_left hle

/-- Not more than `2 ^ 62` milliseconds are added to a wait. -/
theorem spread_lt (d : Span) : spread d < 2 ^ 62 := by
  have hmillis := (Word.lowBits (d.nanos / 1000000) : Word 64).toNat_lt
  unfold spread
  omega

/-- **A wait of any length can be made longer** if the longest one is so much shorter than
the longest span. -/
theorem isSome_lengthened {b : Backoff} {d : Span} (hd : d ≤ b.longest)
    (hroom : b.longest.nanos + 2 ^ 62 * 1000000 ≤ 2 ^ 64 * nanosPerSecond) (draw : Nat) :
    (b.lengthened draw d).isSome := by
  unfold lengthened
  split
  next =>
    have hadded : (Span.ofMillis (min draw (spread d))).nanos ≤ min draw (spread d) * 1000000 :=
      Nat.min_le_left _ _
    have hspread := spread_lt d
    have hle : d.nanos ≤ b.longest.nanos := hd
    exact Span.isSome_plus?.mpr (by omega)
  next => rfl

/-- Without jitter nothing is added. -/
theorem lengthened_of_not_jitter {b : Backoff} (h : b.jitter = false) (draw : Nat) (d : Span) :
    b.lengthened draw d = some d := by
  unfold lengthened
  rw [h]
  exact if_neg fun hj => nomatch hj.1

/-- **What a wait comes to.**  There is none after the retries; the others are counted, unless
what is drawn makes them longer than any span. -/
theorem sleep_eq (b : Backoff) (draw : Nat) :
    b.sleep draw = if b.attempts + 1 ≤ b.maxRetries.toNat then
        if (b.lengthened draw b.wait).isSome then .ok { b with attempts := b.attempts + 1 }
        else .error .panicked
      else .error (.failed ⟨b.maxRetries⟩) := by
  unfold sleep delay
  by_cases hless : b.attempts < b.maxRetries.toNat
  · rw [if_pos hless, if_pos (Nat.succ_le_of_lt hless)]
    simp only
    cases b.lengthened draw b.wait with
    | none => rfl
    | some d => rfl
  · rw [if_neg hless, if_neg fun h => hless (Nat.lt_of_succ_le h)]

/-! ## §2. Waits and resets. -/

/-- What is called for between attempts. -/
inductive Call where
  /-- A wait, and what is drawn for it. -/
  | sleep (draw : Nat)
  | reset
  deriving DecidableEq, Repr

/-- What comes of a call. -/
inductive Outcome where
  | slept
  | refused (e : RetriesExceeded)
  | panicked
  | forgotten
  deriving DecidableEq, Repr

/-- Do what is called for.  A wait that is refused changes nothing. -/
def answer (b : Backoff) : Call → Outcome × Backoff
  | .sleep draw =>
      match b.sleep draw with
      | .ok b' => (.slept, b')
      | .error (.failed e) => (.refused e, b)
      | .error .panicked => (.panicked, b)
  | .reset => (.forgotten, b.reset)

/-- Do what is called for, call by call. -/
def run : Backoff → List Call → List Outcome × Backoff
  | b, [] => ([], b)
  | b, call :: calls =>
      let (outcome, b) := b.answer call
      let (outcomes, b) := b.run calls
      (outcome :: outcomes, b)

/-- The waits there have been since the last reset. -/
def sleptSince (past : List Outcome) : Nat :=
  (past.reverse.takeWhile (· ≠ .forgotten)).count .slept

theorem sleptSince_append (past : List Outcome) (outcome : Outcome) :
    sleptSince (past ++ [outcome]) = match outcome with
      | .slept => sleptSince past + 1
      | .forgotten => 0
      | _ => sleptSince past := by
  unfold sleptSince
  rw [List.reverse_append]
  cases outcome <;> simp

/-- What a wait that is called for can come to.  Only what is drawn can make it panic. -/
theorem answer_sleep_cases (b : Backoff) (draw : Nat) :
    (b.attempts + 1 ≤ b.maxRetries.toNat
        ∧ b.answer (.sleep draw) = (.slept, { b with attempts := b.attempts + 1 }))
      ∨ b.answer (.sleep draw) = (.refused ⟨b.maxRetries⟩, b)
      ∨ b.jitter = true ∧ b.answer (.sleep draw) = (.panicked, b) := by
  have hsleep := b.sleep_eq draw
  by_cases hmore : b.attempts + 1 ≤ b.maxRetries.toNat
  · rw [if_pos hmore] at hsleep
    by_cases hfits : (b.lengthened draw b.wait).isSome
    · rw [if_pos hfits] at hsleep
      exact .inl ⟨hmore, by simp only [answer, hsleep]⟩
    · rw [if_neg hfits] at hsleep
      refine .inr (.inr ⟨?_, by simp only [answer, hsleep]⟩)
      refine (Bool.eq_false_or_eq_true b.jitter).resolve_right fun hcalm => hfits ?_
      rw [lengthened_of_not_jitter hcalm]
      rfl
  · rw [if_neg hmore] at hsleep
    exact .inr (.inl (by simp only [answer, hsleep]))

/-- After calls with these outcomes only the attempts have changed.  They are the waits
since the last reset, and not more than the retries; and there has been no panic without
jitter. -/
structure Tracks (start : Backoff) (past : List Outcome) (b : Backoff) : Prop where
  eq : b = { start with attempts := sleptSince past }
  within : sleptSince past ≤ start.maxRetries.toNat
  calm : start.jitter = false → .panicked ∉ past

variable {start b : Backoff} {past : List Outcome}

/-- There is still no panic without jitter. -/
theorem Tracks.calm_concat (h : start.Tracks past b) (outcome : Outcome)
    (hcalm : start.jitter = false → .panicked ≠ outcome) (hj : start.jitter = false) :
    .panicked ∉ past ++ [outcome] := fun hmem =>
  (List.mem_append.mp hmem).elim (h.calm hj) fun hlast => hcalm hj (List.mem_singleton.mp hlast)

/-- **One more call keeps track.** -/
theorem Tracks.answer (h : start.Tracks past b) (call : Call) :
    start.Tracks (past ++ [(b.answer call).1]) (b.answer call).2 := by
  have hcalm := h.calm_concat
  obtain ⟨rfl, hwithin, -⟩ := h
  cases call with
  | reset =>
    exact ⟨by rw [sleptSince_append]; rfl, by rw [sleptSince_append]; exact Nat.zero_le _,
      hcalm _ fun _ => nofun⟩
  | sleep draw =>
    rcases answer_sleep_cases { start with attempts := sleptSince past } draw with
      ⟨hmore, hb⟩ | hb | ⟨hj, hb⟩
    · rw [hb]
      exact ⟨by rw [sleptSince_append], by rw [sleptSince_append]; exact hmore,
        hcalm _ fun _ => nofun⟩
    · rw [hb]
      exact ⟨by rw [sleptSince_append], by rw [sleptSince_append]; exact hwithin,
        hcalm _ fun _ => nofun⟩
    · rw [hb]
      exact ⟨by rw [sleptSince_append], by rw [sleptSince_append]; exact hwithin,
        hcalm _ fun hcalm => absurd (hcalm.symm.trans hj) nofun⟩

/-- **And so do any number of calls.** -/
theorem Tracks.run (h : start.Tracks past b) (calls : List Call) :
    start.Tracks (past ++ (b.run calls).1) (b.run calls).2 := by
  induction calls generalizing past b with
  | nil =>
    show start.Tracks (past ++ []) b
    rwa [List.append_nil]
  | cons call calls ih =>
    have hrest := ih (h.answer call)
    rwa [List.append_assoc] at hrest

theorem tracks_new (initial longest : Span) (retries : Retries) (jitter : Bool) :
    Tracks ⟨initial, longest, retries, 0, jitter⟩ [] ⟨initial, longest, retries, 0, jitter⟩ :=
  ⟨rfl, Nat.zero_le _, fun _ => nofun⟩

end Backoff

/-! ## §3. The waits that are configured. -/

/-- Settings are only accepted with the initial wait within the longest one. -/
theorem StreamConfig.initialDelay_le_maxDelay {env : Environment} {c : StreamConfig}
    (h : StreamConfig.ofEnvironment env = .ok c) : c.initialDelay ≤ c.maxDelay := by
  unfold StreamConfig.ofEnvironment at h
  split at h
  next => exact nomatch h
  next =>
    simp only at h
    split at h
    next => exact nomatch h
    next =>
      split at h
      next => exact nomatch h
      next =>
        split at h
        next => exact nomatch h
        next hle =>
          obtain rfl := Except.ok.inj h
          exact Nat.not_lt.mp hle

theorem Span.nanos_ofSeconds (n : Seconds) :
    (Span.ofSeconds n.toNat).nanos = n.toNat * nanosPerSecond :=
  Span.nanos_ofNanos_of_lt (Nat.mul_lt_mul_of_pos_right n.toNat_lt (by decide))

/-- The first wait is as configured. -/
theorem StreamConfig.first_wait {env : Environment} {c : StreamConfig}
    (h : StreamConfig.ofEnvironment env = .ok c) :
    (Backoff.new c.settings.initialDelay c.settings.maxDelay c.settings.maxRetries).wait
      = c.settings.initialDelay := by
  refine Backoff.wait_of_attempts_zero rfl ?_
  show (Span.ofSeconds c.initialDelay.toNat).nanos ≤ (Span.ofSeconds c.maxDelay.toNat).nanos
  rw [Span.nanos_ofSeconds, Span.nanos_ofSeconds]
  exact Nat.mul_le_mul_right _ (StreamConfig.initialDelay_le_maxDelay h)

/-- **Waits are exact, never get shorter, and stop with the retries.**  After `k` attempts
the wait is the initial one times `2 ^ k`, or times `2 ^ 32 - 1` from then on, but at most
the longest one; and once there have been as many attempts as retries there is none.  The
64 bits of the multiplication are enough: the nanoseconds never wrap around, and there is
no product only where it is no span.  Whatever has been called for, the attempts are the
waits since the last reset, and without jitter no wait panics.  The first wait of accepted
settings is the one they give. -/
theorem delays_exact :
    (∀ (initial longest : Span) (retries : Retries) (jitter : Bool),
      let after := fun k => (⟨initial, longest, retries, k, jitter⟩ : Backoff)
      (∀ k, (∀ e, (after k).delay = .error e ↔ retries.toNat ≤ k ∧ e = ⟨retries⟩)
          ∧ (k < retries.toNat → ∃ d, (after k).delay = .ok d
            ∧ d.nanos = min (initial.nanos * min (2 ^ k) (2 ^ 32 - 1)) longest.nanos))
        ∧ (∀ factor : Word 32, initial.subsecond * factor.toNat < 2 ^ 64
          ∧ ∀ d, initial.times? factor = some d ↔ d.nanos = initial.nanos * factor.toNat)
        ∧ (∀ j k d d', j ≤ k → (after j).delay = .ok d → (after k).delay = .ok d' →
          d ≤ d' ∧ d' ≤ longest)
        ∧ ∀ calls,
          let ran := (after 0).run calls
          ran.2 = after (Backoff.sleptSince ran.1) ∧ Backoff.sleptSince ran.1 ≤ retries.toNat
            ∧ (jitter = false → .panicked ∉ ran.1))
      ∧ ∀ env c, StreamConfig.ofEnvironment env = .ok c → 1 ≤ c.maxRetries.toNat →
        (Backoff.new c.settings.initialDelay c.settings.maxDelay c.settings.maxRetries).delay
          = .ok (.ofSeconds c.initialDelay.toNat)
        ∧ (Span.ofSeconds c.initialDelay.toNat).nanos = c.initialDelay.toNat * nanosPerSecond := by
  refine ⟨fun initial longest retries jitter => ?_, fun env c hc hretries => ?_⟩
  · intro after
    refine ⟨fun k => ⟨fun e => Backoff.delay_eq_error_iff, fun hk => ?_⟩, fun factor => ?_,
      fun j k d d' hjk hd hd' => ?_, fun calls => ?_⟩
    · exact ⟨_, Backoff.delay_eq_ok_iff.mpr ⟨hk, rfl⟩, (after k).nanos_wait⟩
    · refine ⟨?_, fun d => Span.times?_eq_some_iff⟩
      rw [← Span.toNat_subsecondTimes]
      exact (initial.subsecondTimes factor).toNat_lt
    · obtain ⟨-, rfl⟩ := Backoff.delay_eq_ok_iff.mp hd
      obtain ⟨-, rfl⟩ := Backoff.delay_eq_ok_iff.mp hd'
      exact ⟨(after k).wait_le_wait hjk, (after k).wait_le_longest⟩
    · have htracks := (Backoff.tracks_new initial longest retries jitter).run calls
      exact ⟨htracks.eq, htracks.within, htracks.calm⟩
  · refine ⟨?_, Span.nanos_ofSeconds c.initialDelay⟩
    exact Backoff.delay_eq_ok_iff.mpr ⟨hretries, (StreamConfig.first_wait hc).symm⟩

/-- The factor stops growing behind 32 attempts, and there is no wait behind 100 of them.
A wait that is refused does not count, and a reset forgets those before it.  An environment
that sets none of the waits has two seconds for the first. -/
theorem delays_exact_edges :
    let b := fun k => (⟨.ofNanos 1500000000, .longest, .clamp 100, k, false⟩ : Backoff)
    (∃ d, (b 40).delay = .ok d ∧ d.nanos = 1500000000 * (2 ^ 32 - 1))
      ∧ (b 100).delay = .error ⟨.clamp 100⟩
      ∧ ((Backoff.new (.ofNanos 0) (.ofNanos 0) (.clamp 2)).withoutJitter.run
          [.sleep 0, .sleep 0, .sleep 0, .reset, .sleep 0]).2.attempts = 1
      ∧ ∃ c, StreamConfig.ofEnvironment ⟨[("ETH_RPC_URL", "ws://node")]⟩ = .ok c
        ∧ 1 ≤ c.maxRetries.toNat
        ∧ (Backoff.new c.settings.initialDelay c.settings.maxDelay c.settings.maxRetries).delay
          = .ok (.ofSeconds 2) := by
  intro b
  obtain ⟨hexact, -⟩ := delays_exact.1 (.ofNanos 1500000000) .longest (.clamp 100) false
  refine ⟨?_, ((hexact 100).1 _).mpr ⟨by decide, rfl⟩, ?_, ⟨_, rfl, by decide, ?_⟩⟩
  · obtain ⟨d, hd, hnanos⟩ := (hexact 40).2 (by decide)
    exact ⟨d, hd, hnanos.trans (by decide)⟩
  · obtain ⟨hran, -⟩ := (delays_exact.1 (.ofNanos 0) (.ofNanos 0) (.clamp 2) false).2.2.2
      [.sleep 0, .sleep 0, .sleep 0, .reset, .sleep 0]
    exact (congrArg Backoff.attempts hran).trans (by decide)
  · exact (delays_exact.2 ⟨[("ETH_RPC_URL", "ws://node")]⟩ _ rfl (by decide)).1

end FundTrail
