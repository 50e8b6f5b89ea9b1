/-
  FundTrail.Proofs.Stream.Patience
  ────────────────────────────────
  **WHEN A STREAM GIVES UP ITS SUBSCRIPTION.**

  Whatever a round announces, the attempts are forgotten, and the wait at the end of
  this very round is the first attempt again.  So a stream gives up at the end of the
  first round at which there have been more rounds than it may retry, and as many
  rounds as it may retry have announced nothing.  Until then it handles every header
  of every round, as if all of them had been announced in one.

  That is how it ends unless it panics before.  It does if a count or a height does not
  fit in a checked build, and in any build if what is drawn makes a wait longer than
  every span; and else it does not (`Smooth`).  Where the delays and the numbers leave
  some room, nothing of the kind can happen (`smooth_of_room`).

  What a header brings about does not depend on the subscriptions that there have been:
  two streams that have done the same but for those go in lockstep
  (`Streamer.Alongside.lockstep`).

  Main facts: `throughRound_ends` for one round, and `run_gives_up`.
-/
import FundTrail.Proofs.Stream.Course
import FundTrail.Proofs.Stream.Delays

namespace FundTrail

open Streamer

variable {σ : Type}

/-! ## §1. All headers as if in one subscription. -/

/-- The two streams have done the same but for subscribing. -/
structure Streamer.Alongside (s t : Streamer σ) : Prop where
  world : s.world = t.world
  next : s.next = t.next
  stats : ∀ k, k ≠ .resubscriptions → s.stats.of k = t.stats.of k
  fetches : s.requests.filter (· ≠ .subscribe) = t.requests.filter (· ≠ .subscribe)

namespace Streamer.Alongside

variable {s t : Streamer σ}

theorem refl (s : Streamer σ) : s.Alongside s := ⟨rfl, rfl, fun _ _ => rfl, rfl⟩

/-- Both make the same request, whatever comes of it. -/
theorem asked (h : s.Alongside t) (request : Request) (world : σ) :
    Alongside { s with world, requests := s.requests ++ [request] }
      { t with world, requests := t.requests ++ [request] } := by
  refine ⟨rfl, h.next, h.stats, ?_⟩
  show List.filter _ (s.requests ++ _) = List.filter _ (t.requests ++ _)
  rw [List.filter_append, List.filter_append, h.fetches]

theorem subscribed (h : s.Alongside t) : (subscribe s).2.Alongside t := by
  refine ⟨h.world, h.next, h.stats, ?_⟩
  show List.filter _ (s.requests ++ [.subscribe]) = _
  rw [List.filter_append, h.fetches]
  exact List.append_nil _

/-- **Streams side by side go on side by side**, and neither subscribe nor count
subscriptions on the way. -/
theorem lockstep (c : Conduit σ) (subscriptions : Nat) (resubscriptions : Count) :
    Lockstep (fun s t => s.Alongside t ∧ s.requests.count .subscribe = subscriptions
      ∧ s.stats.resubscriptions = resubscriptions) c c where
  overflow := rfl
  fetchByNumber limit number s t h := by
    obtain ⟨halong, hcount, hstats⟩ := h
    unfold Streamer.fetchByNumber
    rw [halong.world]
    exact ⟨rfl, halong.asked _ _, List.count_append.trans hcount, hstats⟩
  fetchByHash limit hash s t h := by
    obtain ⟨halong, hcount, hstats⟩ := h
    unfold Streamer.fetchByHash
    rw [halong.world]
    exact ⟨rfl, halong.asked _ _, List.count_append.trans hcount, hstats⟩
  deliver batch s t h := by
    obtain ⟨halong, hcounts⟩ := h
    unfold Streamer.deliver
    rw [halong.world]
    exact ⟨rfl, ⟨rfl, halong.next, halong.stats, halong.fetches⟩, hcounts⟩
  count k n hk s t h := by
    obtain ⟨halong, hcount, hstats⟩ := h
    unfold Streamer.count
    rw [halong.stats k hk]
    split
    next total _ =>
      refine ⟨rfl, ⟨halong.world, halong.next, fun j hj => ?_, halong.fetches⟩, hcount,
        (StreamStats.of_set_of_ne s.stats hk.symm total).trans hstats⟩
      rw [StreamStats.of_set, StreamStats.of_set, halong.stats j hj]
    next => exact ⟨rfl, halong, hcount, hstats⟩
  expect due s t h := ⟨rfl, ⟨h.1.world, rfl, h.1.stats, h.1.fetches⟩, h.2⟩
  settle number s t h := by
    obtain ⟨halong, hcounts⟩ := h
    unfold Streamer.settle
    rw [halong.next]
    exact ⟨rfl, ⟨halong.world, rfl, halong.stats, halong.fetches⟩, hcounts⟩

end Streamer.Alongside

/-- The headers of two lists, one list after the other. -/
theorem onHeaders_append (c : Conduit σ) (settings : StreamSettings)
    (headers more : List Header) :
    onHeaders c settings (headers ++ more)
      = onHeaders c settings headers >>= fun _ => onHeaders c settings more := by
  induction headers with
  | nil => exact (pure_bind _ _).symm
  | cons header headers ih =>
    show (onHeader c settings header >>= fun _ => onHeaders c settings (headers ++ more))
      = (onHeader c settings header >>= fun _ => onHeaders c settings headers) >>= _
    rw [ih, bind_assoc]

/-- The rounds of two lists, one list after the other. -/
theorem through_append (c : Conduit σ) (settings : StreamSettings) (rounds more : List Round)
    (backoff : Backoff) :
    through c settings (rounds ++ more) backoff
      = through c settings rounds backoff >>= through c settings more := by
  induction rounds generalizing backoff with
  | nil => exact (pure_bind _ _).symm
  | cons round rounds ih =>
    show (throughRound c settings backoff round >>= through c settings (rounds ++ more))
      = (throughRound c settings backoff round >>= through c settings rounds) >>= _
    rw [bind_assoc]
    exact congrArg _ (funext ih)

/-! ## §2. Attempts. -/

/-- The first rounds of a script. -/
def roundsOf (script : Nat → Round) (count : Nat) : List Round := (List.range count).map script

/-- All headers that these rounds announce. -/
def headersIn (script : Nat → Round) (count : Nat) : List Header :=
  (roundsOf script count).flatMap headersOf

section

variable (script : Nat → Round)

theorem roundsOf_add (count more : Nat) :
    roundsOf script (count + more)
      = roundsOf script count ++ (List.range more).map fun n => script (count + n) := by
  unfold roundsOf
  rw [List.range_add, List.map_append, List.map_map]
  rfl

theorem headersIn_succ (count : Nat) :
    headersIn script (count + 1) = headersIn script count ++ headersOf (script count) := by
  unfold headersIn
  rw [roundsOf_add, List.flatMap_append]
  exact congrArg _ (List.append_nil _)

/-- The attempts that the waits behind so many rounds come to, as long as no wait has
been the last. -/
def attemptsAfter : Nat → Nat
  | 0 => 0
  | n + 1 => (if headersOf (script n) = [] then attemptsAfter n else 0) + 1

/-- There have been more rounds than retries, and the last of them, as many as there
are retries, have announced nothing. -/
def Exhausted (retries : Nat) (rounds : Nat) : Prop :=
  retries + 1 ≤ rounds
    ∧ ∀ j, rounds - retries ≤ j → j < rounds → headersOf (script j) = []

instance (retries : Nat) (rounds : Nat) : Decidable (Exhausted script retries rounds) :=
  inferInstanceAs (Decidable (_ ∧ _))

/-- More waits are called for than may be exactly if the rounds are exhausted. -/
theorem lt_attemptsAfter_iff (retries rounds : Nat) :
    retries < attemptsAfter script rounds ↔ Exhausted script retries rounds := by
  unfold Exhausted
  induction rounds generalizing retries with
  | zero => exact ⟨fun h => absurd h (Nat.not_lt_zero _), fun h => absurd h.1 (by omega)⟩
  | succ n ih =>
    unfold attemptsAfter
    by_cases hsilent : headersOf (script n) = []
    · rw [if_pos hsilent]
      cases retries with
      | zero => exact ⟨fun _ => ⟨by omega, fun j _ _ => by omega⟩, fun _ => by omega⟩
      | succ retries =>
        -- one silent round more, and one round less that has to be silent before it
        rw [Nat.add_lt_add_iff_right, ih]
        constructor
        · rintro ⟨hmore, hrest⟩
          refine ⟨by omega, fun j hlow hhigh => ?_⟩
          by_cases hlast : j = n
          · rw [hlast]
            exact hsilent
          · exact hrest j (by omega) (by omega)
        · rintro ⟨hmore, hall⟩
          exact ⟨by omega, fun j hlow hhigh => hall j (by omega) (by omega)⟩
    · rw [if_neg hsilent]
      -- what has been announced is in the way, unless there are no retries at all
      constructor
      · intro hone
        exact ⟨by omega, fun j _ _ => by omega⟩
      · rintro ⟨-, hall⟩
        by_cases hzero : retries = 0
        · omega
        · exact absurd (hall n (by omega) (by omega)) hsilent

variable (settings : StreamSettings)

/-- The attempts behind so many rounds. -/
def backoffAfter (n : Nat) : Backoff :=
  { Backoff.new settings.initialDelay settings.maxDelay settings.maxRetries with
    attempts := attemptsAfter script n }

/-- The attempts from which the wait behind round `n` sets out. -/
def backoffAt (n : Nat) : Backoff :=
  if (headersOf (script n)).isEmpty then backoffAfter script settings n
  else (backoffAfter script settings n).reset

theorem backoffAt_attempts_succ (n : Nat) :
    { backoffAt script settings n with attempts := (backoffAt script settings n).attempts + 1 }
      = backoffAfter script settings (n + 1) := by
  unfold backoffAt
  rw [backoffAfter, backoffAfter, attemptsAfter]
  cases headersOf (script n) <;> rfl

end

/-! ## §3. An open consumer. -/

/-- As long as somebody takes the blocks, only a panic can be in the way of an answer. -/
def OnlyPanics {α : Type} (o : Overflow) : Except (Stop StreamError) α → Prop
  | .ok _ => True
  | .error .panicked => o = .panics
  | .error (.failed _) => False

theorem OnlyPanics.cases {o : Overflow} {result : Except (Stop StreamError) Unit}
    (h : OnlyPanics o result) : result = .ok () ∨ result = .error .panicked ∧ o = .panics := by
  rcases result with (e | _) | _
  · exact h.elim
  · exact .inr ⟨rfl, h⟩
  · exact .inl rfl

section

variable {c : Conduit σ} (hopen : c.Open)

/-- In any state the question is answered, unless it ends in a panic of a checked build. -/
def Streamer.NeverRefused {α : Type} (c : Conduit σ) (x : Streaming σ α) : Prop :=
  Asking.Obeys (fun _ => True) (OnlyPanics c.machine.overflow) x

theorem Streamer.NeverRefused.bind {α β : Type} {x : Streaming σ α} {f : α → Streaming σ β}
    (h : NeverRefused c x) (hf : ∀ a, NeverRefused c (f a)) : NeverRefused c (x >>= f) :=
  Asking.Obeys.bind h (fun a _ => hf a) fun e he => by cases e <;> exact he

theorem neverRefused_count (c : Conduit σ) (k : Counter) (n : Nat) :
    NeverRefused c (count c k n) := by
  intro s _
  unfold Streamer.count
  split
  next => exact ⟨trivial, trivial⟩
  next hfull => exact ⟨(Word.plus?_eq_none_iff.mp hfull).1, trivial⟩

theorem neverRefused_moveBehind (c : Conduit σ) (number : Height) :
    NeverRefused c (moveBehind c number) := by
  unfold Streamer.moveBehind
  split
  next due _ => exact fun _ _ => ⟨trivial, trivial⟩
  next hfull => exact fun _ _ => ⟨(Word.plus?_eq_none_iff.mp hfull).1, trivial⟩

include hopen

theorem neverRefused_handOff (batch : Batch) : NeverRefused c (handOff c batch) := by
  have htaken : NeverRefused c (deliver c batch) := by
    intro s _
    unfold Streamer.deliver
    rw [show c.deliver batch s.world = (true, (c.deliver batch s.world).2) from
      Prod.ext (hopen batch s.world) rfl]
    exact ⟨trivial, trivial⟩
  exact htaken.bind fun _ => (neverRefused_moveBehind c _).bind fun _ =>
    neverRefused_count c .handedOff 1

theorem neverRefused_backfill (limit : Span) (more : Nat) (number : Height) :
    NeverRefused c (backfill c limit more number) := by
  induction more generalizing number with
  | zero => exact fun _ _ => ⟨trivial, trivial⟩
  | succ more ih =>
    have hfetch : NeverRefused c (fetchByNumber c limit number) := fun _ _ => ⟨trivial, trivial⟩
    refine hfetch.bind fun answer => ?_
    cases answer with
    | error e => exact fun _ _ => ⟨trivial, trivial⟩
    | ok batch =>
      exact (neverRefused_count c .backfilled 1).bind fun _ =>
        (neverRefused_handOff hopen batch).bind fun _ => ih number.next

variable (settings : StreamSettings)

theorem neverRefused_announced (header : Header) :
    NeverRefused c (announced c settings header) := by
  have hfetch : NeverRefused c (fetchByHash c settings.fetchTimeout header.hash) :=
    fun _ _ => ⟨trivial, trivial⟩
  refine hfetch.bind fun answer => ?_
  cases answer with
  | ok batch => exact neverRefused_handOff hopen batch
  | error e =>
    show NeverRefused c (if settings.backfill then _ else _)
    split
    next => exact fun _ _ => ⟨trivial, trivial⟩
    next =>
      exact (neverRefused_count c .dropped 1).bind fun _ => neverRefused_moveBehind c header.number

theorem neverRefused_onHeader (header : Header) : NeverRefused c (onHeader c settings header) := by
  have hsettle : NeverRefused c (settle header.number) := fun _ _ => ⟨trivial, trivial⟩
  refine (neverRefused_count c .headers 1).bind fun _ => hsettle.bind fun next => ?_
  split
  next => exact fun _ _ => ⟨trivial, trivial⟩
  next =>
    split
    next =>
      refine (neverRefused_count c .dropped _).bind fun _ =>
        (neverRefused_backfill hopen _ _ _).bind ?_
      rintro (_ | _)
      · exact fun _ _ => ⟨trivial, trivial⟩
      · exact neverRefused_announced hopen settings header
    next => exact neverRefused_announced hopen settings header

/-- As long as somebody takes the blocks, headers are handled, or it ends in a panic. -/
theorem neverRefused_onHeaders (headers : List Header) :
    NeverRefused c (onHeaders c settings headers) := by
  induction headers with
  | nil => exact fun _ _ => ⟨trivial, trivial⟩
  | cons header headers ih => exact (neverRefused_onHeader hopen settings header).bind fun _ => ih

end

/-! ## §4. What a stream has handled. -/

/-- From `s` to `t` these headers have been handled, in order and nothing else; and
there have been so many subscriptions, and so many waits behind them. -/
structure Handled (c : Conduit σ) (settings : StreamSettings) (headers : List Header)
    (subscriptions waits : Nat) (s t : Streamer σ) : Prop where
  handled : (onHeaders c settings headers s).1 = .ok ()
  alongside : t.Alongside (onHeaders c settings headers s).2
  subscriptions :
    t.requests.count .subscribe = s.requests.count .subscribe + subscriptions
  waits : s.stats.resubscriptions.plus? c.machine.overflow waits = some t.stats.resubscriptions

namespace Handled

variable {c : Conduit σ} {settings : StreamSettings} {headers more : List Header} {n k : Nat}
  {s t : Streamer σ}

theorem refl (c : Conduit σ) (settings : StreamSettings) (s : Streamer σ) :
    Handled c settings [] 0 0 s s :=
  ⟨rfl, .refl s, rfl, Word.plus?_zero⟩

theorem subscribed (h : Handled c settings headers n k s t) :
    Handled c settings headers (n + 1) k s (subscribe t).2 where
  handled := h.handled
  alongside := h.alongside.subscribed
  subscriptions := by
    show List.count _ (t.requests ++ [.subscribe]) = _
    rw [List.count_append, h.subscriptions]
    rfl
  waits := h.waits

/-- Other headers are handled as if they had been announced together with these. -/
theorem onHeaders (h : Handled c settings headers n k s t) (more : List Header) :
    (Streamer.onHeaders c settings more).Ends t fun result u =>
      result = (Streamer.onHeaders c settings (headers ++ more) s).1
        ∧ (result = .ok () → Handled c settings (headers ++ more) n k s u) := by
  have hboth : Streamer.onHeaders c settings (headers ++ more) s
      = Streamer.onHeaders c settings more (Streamer.onHeaders c settings headers s).2 := by
    rw [onHeaders_append]
    exact Asking.bind_run_ok (Prod.ext h.handled rfl)
  obtain ⟨hresult, halong, hcount, hstats⟩ :=
    (Alongside.lockstep c _ _).onHeaders settings more t _ ⟨h.alongside, rfl, rfl⟩
  unfold Asking.Ends
  rw [hboth]
  refine ⟨hresult, fun hok => ⟨?_, ?_, hcount.trans h.subscriptions, ?_⟩⟩
  · rw [hboth, ← hresult, hok]
  · rw [hboth]
    exact halong
  · rw [hstats]
    exact h.waits

/-- One wait more is counted if that count fits. -/
theorem counted (h : Handled c settings headers n k s t) :
    (count c .resubscriptions 1).Ends t fun result u =>
      (result = .ok () ∧ Handled c settings headers n (k + 1) s u)
        ∨ (result = .error .panicked
          ∧ s.stats.resubscriptions.plus? c.machine.overflow (k + 1) = none) := by
  rw [← Word.plus?_plus? h.waits]
  unfold Asking.Ends Streamer.count
  show _ ∨ _ ∧ (t.stats.of .resubscriptions).plus? _ 1 = none
  split
  next total htotal =>
    refine .inl ⟨rfl, h.handled, ?_, h.subscriptions, ?_⟩
    · refine ⟨h.alongside.world, h.alongside.next, fun j hj => ?_, h.alongside.fetches⟩
      rw [StreamStats.of_set_of_ne _ hj]
      exact h.alongside.stats j hj
    · rw [← Word.plus?_plus? h.waits]
      exact htotal
  next hfull => exact .inr ⟨rfl, hfull⟩

end Handled

/-! ## §5. From round to round. -/

/-- What is drawn for the wait behind round `n` does not make it longer than every span. -/
def WaitFits (machine : Machine) (settings : StreamSettings) (script : Nat → Round) (n : Nat) :
    Prop :=
  let backoff := backoffAt script settings n
  (backoff.lengthened (machine.draw (n + 1)) backoff.wait).isSome

instance (machine : Machine) (settings : StreamSettings) (script : Nat → Round) (n : Nat) :
    Decidable (WaitFits machine settings script n) :=
  inferInstanceAs (Decidable (_ = true))

/-- Nothing panics in so many rounds, with so many waits behind them. -/
structure Smooth (c : Conduit σ) (settings : StreamSettings) (script : Nat → Round)
    (s : Streamer σ) (rounds waits : Nat) : Prop where
  headers : (onHeaders c settings (headersIn script rounds) s).1 = .ok ()
  fits : ∀ n < waits, WaitFits c.machine settings script n
  resubscriptions : s.stats.resubscriptions.plus? c.machine.overflow waits ≠ none

section

variable {c : Conduit σ} {settings : StreamSettings} {script : Nat → Round} {s t : Streamer σ}
  {n rounds waits : Nat}

theorem Smooth.of_succ (h : Smooth c settings script s (rounds + 1) waits) :
    Smooth c settings script s rounds waits where
  headers := by
    have hall := h.headers
    rw [headersIn_succ, onHeaders_append] at hall
    obtain ⟨_, _, hfirst, -⟩ := Asking.bind_run_eq_ok (Prod.ext hall rfl)
    exact congrArg Prod.fst hfirst
  fits := h.fits
  resubscriptions := h.resubscriptions

theorem Smooth.of_waits_succ (h : Smooth c settings script s rounds (waits + 1)) :
    Smooth c settings script s rounds waits where
  headers := h.headers
  fits n hn := h.fits n (Nat.lt_succ_of_lt hn)
  resubscriptions hfull := h.resubscriptions (Word.plus?_eq_none_of_le hfull (Nat.le_succ _))

/-- What becomes of round `n`. -/
inductive RoundEnds (c : Conduit σ) (settings : StreamSettings) (script : Nat → Round)
    (s : Streamer σ) (n : Nat) : Except (Stop StreamError) Backoff → Streamer σ → Prop
  /-- A header is in the way. -/
  | broken {u : Streamer σ} (hindered : ¬ Smooth c settings script s (n + 1) n) :
      RoundEnds c settings script s n (.error .panicked) u
  /-- The retries are exhausted. -/
  | lost {u : Streamer σ} (smooth : Smooth c settings script s (n + 1) n)
      (exhausted : Exhausted script settings.maxRetries.toNat (n + 1))
      (handled : Handled c settings (headersIn script (n + 1)) (n + 1) n s u) :
      RoundEnds c settings script s n (.error (.failed (.subscriptionLost settings.maxRetries))) u
  /-- The wait behind it is in the way. -/
  | overlong {u : Streamer σ} (smooth : Smooth c settings script s (n + 1) n)
      (goes : ¬ Exhausted script settings.maxRetries.toNat (n + 1))
      (hindered : ¬ Smooth c settings script s (n + 1) (n + 1)) :
      RoundEnds c settings script s n (.error .panicked) u
  /-- There is another attempt. -/
  | waited {u : Streamer σ} (goes : ¬ Exhausted script settings.maxRetries.toNat (n + 1))
      (smooth : Smooth c settings script s (n + 1) (n + 1))
      (handled : Handled c settings (headersIn script (n + 1)) (n + 1) (n + 1) s u) :
      RoundEnds c settings script s n (.ok (backoffAfter script settings (n + 1))) u

/-- The wait behind round `n`: there is none if the retries are exhausted. -/
theorem waitOut_eq (c : Conduit σ) (settings : StreamSettings) (script : Nat → Round)
    (hdraw : t.requests.count .subscribe = n + 1) :
    waitOut c (backoffAt script settings n) t
      = (if Exhausted script settings.maxRetries.toNat (n + 1) then
            .error (.failed (.subscriptionLost settings.maxRetries))
          else if WaitFits c.machine settings script n then
            .ok (backoffAfter script settings (n + 1))
          else .error .panicked, t) := by
  have hsucc := backoffAt_attempts_succ script settings n
  have hretries : (backoffAt script settings n).maxRetries = settings.maxRetries :=
    congrArg Backoff.maxRetries hsucc
  have hattempts : (backoffAt script settings n).attempts + 1 = attemptsAfter script (n + 1) :=
    congrArg Backoff.attempts hsucc
  have hmore := lt_attemptsAfter_iff script settings.maxRetries.toNat (n + 1)
  unfold waitOut WaitFits
  rw [hdraw, Backoff.sleep_eq, hsucc, hattempts, hretries]
  by_cases hexhausted : Exhausted script settings.maxRetries.toNat (n + 1)
  · rw [if_pos hexhausted, if_neg (Nat.not_le.mpr (hmore.mpr hexhausted))]
  · rw [if_neg hexhausted, if_pos (Nat.le_of_not_lt (mt hmore.mp hexhausted))]
    by_cases hfits : ((backoffAt script settings n).lengthened (c.machine.draw (n + 1))
        (backoffAt script settings n).wait).isSome
    · simp only [if_pos hfits]
      exact congrArg (·, t) (if_pos hfits).symm
    · simp only [if_neg hfits]
      exact congrArg (·, t) (if_neg hfits).symm

variable (hopen : c.Open) (hnew : s.requests.count .subscribe = 0)

include hopen hnew

/-- **One round**, behind so many of them. -/
theorem throughRound_ends (hsmooth : Smooth c settings script s n n)
    (h : Handled c settings (headersIn script n) n n s t) :
    (throughRound c settings (backoffAfter script settings n) (script n)).Ends t
      (RoundEnds c settings script s n) := by
  refine .bind_of_ok rfl ?_
  have hheaders := h.subscribed.onHeaders (headersOf (script n))
  rw [← headersIn_succ] at hheaders
  refine hheaders.bind ?_ ?_
  · rintro ⟨⟩ u ⟨hok, hhandled⟩
    replace hhandled := hhandled rfl
    have hcalm : Smooth c settings script s (n + 1) n :=
      ⟨hok.symm, hsmooth.fits, hsmooth.resubscriptions⟩
    have hdraw : u.requests.count .subscribe = n + 1 := by
      rw [hhandled.subscriptions, hnew, Nat.zero_add]
    have hwait := waitOut_eq c settings script hdraw
    show Asking.Ends (waitOut c (backoffAt script settings n) >>= _) u _
    by_cases hexhausted : Exhausted script settings.maxRetries.toNat (n + 1)
    · rw [if_pos hexhausted] at hwait
      unfold Asking.Ends
      rw [Asking.bind_run_error hwait]
      exact .lost hcalm hexhausted hhandled
    rw [if_neg hexhausted] at hwait
    by_cases hfits : WaitFits c.machine settings script n
    · rw [if_pos hfits] at hwait
      refine .bind_of_ok hwait ?_
      have hwaits : ∀ m < n + 1, WaitFits c.machine settings script m := by
        intro m hm
        rcases Nat.lt_succ_iff_lt_or_eq.mp hm with hless | rfl
        · exact hsmooth.fits m hless
        · exact hfits
      refine hhandled.counted.bind ?_ ?_
      · rintro ⟨⟩ v (⟨-, hcounted⟩ | ⟨hpanicked, -⟩)
        · refine .waited hexhausted ⟨hok.symm, hwaits, ?_⟩ hcounted
          rw [hcounted.waits]
          exact nofun
        · exact nomatch hpanicked
      · rintro e v (⟨hcounted, -⟩ | ⟨hpanicked, hfull⟩)
        · exact nomatch hcounted
        · obtain rfl := Except.error.inj hpanicked
          exact .overlong hcalm hexhausted fun hall => hall.resubscriptions hfull
    · rw [if_neg hfits] at hwait
      unfold Asking.Ends
      rw [Asking.bind_run_error hwait]
      exact .overlong hcalm hexhausted fun hall => hfits (hall.fits n (Nat.lt_succ_self n))
  · rintro e u ⟨hresult, -⟩
    -- somebody takes the blocks, so it can only be a panic
    have hanswered := (neverRefused_onHeaders hopen settings (headersIn script (n + 1)) s trivial).1
    rw [← hresult] at hanswered
    rcases hanswered.cases with hok | ⟨hpanicked, -⟩
    · exact nomatch hok
    · obtain rfl := Except.error.inj hpanicked
      refine .broken fun hall => ?_
      exact nomatch hresult.trans hall.headers

/-- **All rounds** as long as the retries are not exhausted. -/
theorem through_ends (hgoes : ∀ j ≤ n, ¬ Exhausted script settings.maxRetries.toNat j) :
    (through c settings (roundsOf script n) (backoffAfter script settings 0)).Ends s
      fun result t =>
        (Smooth c settings script s n n ∧ result = .ok (backoffAfter script settings n)
          ∧ Handled c settings (headersIn script n) n n s t)
        ∨ (¬ Smooth c settings script s n n ∧ result = .error .panicked) := by
  induction n with
  | zero =>
    have hnone : s.stats.resubscriptions.plus? c.machine.overflow 0 ≠ none := by
      rw [Word.plus?_zero]
      exact nofun
    exact .inl ⟨⟨rfl, nofun, hnone⟩, rfl, .refl c settings s⟩
  | succ n ih =>
    rw [roundsOf_add, through_append]
    refine (ih fun j hj => hgoes j (Nat.le_succ_of_le hj)).bind ?_ ?_
    · rintro b t (⟨hsmooth, hb, hhandled⟩ | ⟨-, hpanicked⟩)
      · obtain rfl := Except.ok.inj hb
        refine (throughRound_ends hopen hnew hsmooth hhandled).bind ?_ ?_
        · rintro b u (_ | _ | _ | ⟨-, hall, hdone⟩)
          exact .inl ⟨hall, rfl, hdone⟩
        · rintro e u hround
          cases hround with
          | broken hindered => exact .inr ⟨fun hall => hindered hall.of_waits_succ, rfl⟩
          | lost _ hexhausted _ => exact absurd hexhausted (hgoes (n + 1) (Nat.le_refl _))
          | overlong _ _ hindered => exact .inr ⟨hindered, rfl⟩
      · exact nomatch hpanicked
    · rintro e t (⟨-, hok, -⟩ | ⟨hindered, hpanicked⟩)
      · exact nomatch hok
      · exact .inr ⟨fun hall => hindered hall.of_succ.of_waits_succ, hpanicked⟩

/-- **All rounds** up to the first that exhausts the retries, whatever would come behind
it. -/
theorem through_gives_up (hexhausted : Exhausted script settings.maxRetries.toNat (n + 1))
    (hgoes : ∀ j ≤ n, ¬ Exhausted script settings.maxRetries.toNat j) (more : Nat) :
    (through c settings (roundsOf script (n + 1 + more)) (backoffAfter script settings 0)).Ends s
      fun result t =>
        (Smooth c settings script s (n + 1) n
          ∧ result = .error (.failed (.subscriptionLost settings.maxRetries))
          ∧ Handled c settings (headersIn script (n + 1)) (n + 1) n s t)
        ∨ (¬ Smooth c settings script s (n + 1) n ∧ result = .error .panicked) := by
  rw [Nat.add_assoc, Nat.add_comm 1 more, roundsOf_add, List.range_succ_eq_map, through_append]
  refine (through_ends hopen hnew hgoes).bind ?_ ?_
  · rintro b t (⟨hsmooth, hb, hhandled⟩ | ⟨-, hpanicked⟩)
    · obtain rfl := Except.ok.inj hb
      refine (throughRound_ends hopen hnew hsmooth hhandled).bind ?_ ?_
      · rintro b u (_ | _ | _ | ⟨hmore, -, -⟩)
        exact absurd hexhausted hmore
      · rintro e u hround
        cases hround with
        | broken hindered => exact .inr ⟨hindered, rfl⟩
        | lost hcalm _ hdone => exact .inl ⟨hcalm, rfl, hdone⟩
        | overlong _ hmore _ => exact absurd hexhausted hmore
    · exact nomatch hpanicked
  · rintro e t (⟨-, hok, -⟩ | ⟨hindered, hpanicked⟩)
    · exact nomatch hok
    · exact .inr ⟨fun hall => hindered hall.of_succ, hpanicked⟩

/-- A run subscribes once more behind all of its rounds, and then nothing comes. -/
theorem run_ends_of_goes (hgoes : ∀ j ≤ n, ¬ Exhausted script settings.maxRetries.toNat j) :
    (run c settings (roundsOf script n)).Ends s fun result t =>
      (Smooth c settings script s n n ∧ result = .ok t.stats
        ∧ Handled c settings (headersIn script n) (n + 1) n s t)
      ∨ (¬ Smooth c settings script s n n ∧ result = .error .panicked) := by
  refine (through_ends hopen hnew hgoes).bind ?_ ?_
  · rintro b t (⟨hsmooth, -, hhandled⟩ | ⟨-, hpanicked⟩)
    · exact .inl ⟨hsmooth, rfl, hhandled.subscribed⟩
    · exact nomatch hpanicked
  · rintro e t (⟨-, hok, -⟩ | ⟨hindered, hpanicked⟩)
    · exact nomatch hok
    · exact .inr ⟨hindered, congrArg Except.error (Except.error.inj hpanicked)⟩

/-- It ends with the rounds that exhaust the retries. -/
theorem run_ends_of_exhausted
    (hexhausted : Exhausted script settings.maxRetries.toNat (n + 1))
    (hgoes : ∀ j ≤ n, ¬ Exhausted script settings.maxRetries.toNat j) (more : Nat) :
    (run c settings (roundsOf script (n + 1 + more))).Ends s fun result t =>
      (Smooth c settings script s (n + 1) n
        ∧ result = .error (.failed (.subscriptionLost settings.maxRetries))
        ∧ Handled c settings (headersIn script (n + 1)) (n + 1) n s t)
      ∨ (¬ Smooth c settings script s (n + 1) n ∧ result = .error .panicked) := by
  refine (through_gives_up hopen hnew hexhausted hgoes more).bind ?_ ?_
  · rintro b t (⟨-, hlost, -⟩ | ⟨-, hpanicked⟩)
    · exact nomatch hlost
    · exact nomatch hpanicked
  · rintro e t (⟨hsmooth, hlost, hhandled⟩ | ⟨hindered, hpanicked⟩)
    · exact .inl ⟨hsmooth, congrArg Except.error (Except.error.inj hlost), hhandled⟩
    · exact .inr ⟨hindered, congrArg Except.error (Except.error.inj hpanicked)⟩

end

/-! ## §6. Room enough. -/

/-- As much as headers can bring up a count together. -/
def roomFor : List Header → Nat
  | [] => 0
  | header :: headers => header.number.toNat + 2 + roomFor headers

/-- **Headers are handled** where the counts have room for all their heights together. -/
theorem onHeaders_of_room {c : Conduit σ} (hopen : c.Open) {headers : List Header}
    (hhonest : c.source.Honest headers) (settings : StreamSettings) {s : Streamer σ}
    (hroom : ∀ k, (s.stats.of k).toNat + roomFor headers < 2 ^ 64) :
    (onHeaders c settings headers s).1 = .ok () := by
  induction headers generalizing s with
  | nil => rfl
  | cons header headers ih =>
    unfold roomFor at hroom
    have hone : c.source.Honest [header] :=
      hhonest.mono (List.cons_subset.mpr ⟨List.mem_cons_self, List.nil_subset _⟩)
    have hbelow : header.number.toNat + 1 < 2 ^ 64 := by
      have := hroom .headers
      omega
    refine Asking.Ends.bind (R := fun result _ => result = .ok ())
      (onHeader_brings hone hopen hbelow settings s) ?_ ?_
    · rintro ⟨⟩ t ⟨batches, hfollowed, -, hcounts, -⟩
      have hbegun : Begun _ (incidents c settings header s) :=
        .of_all hfollowed
      refine ih (hhonest.mono (List.subset_cons_self header headers)) fun k => ?_
      have hk := hroom k
      have hup := count_countedAt_le hbegun k
      have hsum : (t.stats.of k).toNat = ((s.stats.of k).toNat + List.count k _) % 2 ^ 64 :=
        (Word.plus?_eq_some_iff.mp (hcounts k)).1
      omega
    · rintro (e | _) t hends
      · exact hends.elim
      · obtain ⟨hbegun, k, hfull⟩ := hends
        have hk := hroom k
        have hup := count_countedAt_le hbegun k
        have hover : 2 ^ 64 ≤ (s.stats.of k).toNat + List.count k _ :=
          (Word.plus?_eq_none_iff.mp hfull).2
        omega

/-- **Where there is room nothing panics**: the longest delay can be made longer by what
is drawn, and either sums wrap around or the counts take all heights together. -/
theorem smooth_of_room {c : Conduit σ} (hopen : c.Open) {settings : StreamSettings}
    {script : Nat → Round} {world : σ} {next : Option Height} {rounds waits : Nat}
    (hdelay : settings.maxDelay.nanos + 2 ^ 62 * 1000000 ≤ 2 ^ 64 * nanosPerSecond)
    (hroom : c.machine.overflow = .wraps ∨ waits < 2 ^ 64
      ∧ c.source.Honest (headersIn script rounds)
      ∧ roomFor (headersIn script rounds) < 2 ^ 64) :
    Smooth c settings script (.new world next) rounds waits where
  headers := by
    rcases hroom with hwraps | ⟨-, hhonest, hsum⟩
    · have hanswered :=
        (neverRefused_onHeaders hopen settings (headersIn script rounds)
          (.new world next) trivial).1
      rcases hanswered.cases with hok | ⟨-, hpanics⟩
      · exact hok
      · exact nomatch hwraps.symm.trans hpanics
    · refine onHeaders_of_room hopen hhonest settings fun k => ?_
      show (StreamStats.zero.of k).toNat + _ < _
      rw [StreamStats.of_zero]
      exact Nat.lt_of_le_of_lt (Nat.le_of_eq (Nat.zero_add _)) hsum
  fits n _ := by
    have hsucc := backoffAt_attempts_succ script settings n
    have hlongest : (backoffAt script settings n).longest = settings.maxDelay :=
      congrArg Backoff.longest hsucc
    exact Backoff.isSome_lengthened (Backoff.wait_le_longest _) (hlongest ▸ hdelay) _
  resubscriptions := by
    intro hfull
    obtain ⟨hpanics, hover⟩ := Word.plus?_eq_none_iff.mp hfull
    rcases hroom with hwraps | ⟨hwaits, -⟩
    · exact nomatch hwraps.symm.trans hpanics
    · have hzero : (Streamer.new world next : Streamer σ).stats.resubscriptions.toNat = 0 := rfl
      omega

/-! ## §7. Giving up. -/

/-- **A stream gives up at the end of the first round that exhausts its retries**, and
not before.  By then it has subscribed as often as there have been rounds, and has
handled all of their headers, in order.  Without such a round, it subscribes again
behind every round.  It panics instead exactly if the headers or the waits until then do
not go by smoothly; and they do where the delays and the counts have room. -/
theorem run_gives_up {c : Conduit σ} (hopen : c.Open) (settings : StreamSettings)
    (script : Nat → Round) (world : σ) (next : Option Height) :
    let start : Streamer σ := .new world next
    let exhausted := Exhausted script settings.maxRetries.toNat
    let smooth := Smooth c settings script start
    let run := fun count => run c settings (roundsOf script count) start
    (∀ i, exhausted i → (∀ j < i, ¬ exhausted j) → ∀ count, i ≤ count →
        (smooth i (i - 1) →
          (run count).1 = .error (.failed (.subscriptionLost settings.maxRetries))
            ∧ Handled c settings (headersIn script i) i (i - 1) start (run count).2)
        ∧ (¬ smooth i (i - 1) → (run count).1 = .error .panicked))
      ∧ (∀ count, (∀ j ≤ count, ¬ exhausted j) →
        (smooth count count → (run count).1 = .ok (run count).2.stats
            ∧ Handled c settings (headersIn script count) (count + 1) count start (run count).2)
        ∧ (¬ smooth count count → (run count).1 = .error .panicked))
      ∧ ∀ rounds waits, settings.maxDelay.nanos + 2 ^ 62 * 1000000 ≤ 2 ^ 64 * nanosPerSecond →
        (c.machine.overflow = .wraps ∨ waits < 2 ^ 64
          ∧ c.source.Honest (headersIn script rounds)
          ∧ roomFor (headersIn script rounds) < 2 ^ 64) →
        smooth rounds waits := by
  intro start exhausted smooth run
  have hnew : start.requests.count .subscribe = 0 := rfl
  refine ⟨fun i hexhausted hleast count hi => ?_, fun count hgoes => ?_,
    fun rounds waits => smooth_of_room hopen⟩
  · have hpos : 0 < i := Nat.lt_of_lt_of_le (Nat.zero_lt_succ _) hexhausted.1
    obtain ⟨n, rfl⟩ := Nat.exists_eq_succ_of_ne_zero (Nat.ne_of_gt hpos)
    obtain ⟨more, rfl⟩ := Nat.exists_eq_add_of_le hi
    rcases run_ends_of_exhausted hopen hnew hexhausted
      (fun j hj => hleast j (Nat.lt_succ_of_le hj)) more with
      ⟨hsmooth, hlost⟩ | ⟨hindered, hpanicked⟩
    · exact ⟨fun _ => hlost, fun hnot => absurd hsmooth hnot⟩
    · exact ⟨fun hall => absurd hall hindered, fun _ => hpanicked⟩
  · rcases run_ends_of_goes hopen hnew hgoes with ⟨hsmooth, hok⟩ | ⟨hindered, hpanicked⟩
    · exact ⟨fun _ => hok, fun hnot => absurd hsmooth hnot⟩
    · exact ⟨fun hall => absurd hall hindered, fun _ => hpanicked⟩

/-- Somebody takes blocks, but there never are any; sums wrap around, and the longest
addition to a wait is drawn each time. -/
def barrenConduit : Conduit Unit :=
  ⟨⟨.wraps, fun _ => 2 ^ 62⟩, fun _ w => (none, w), fun _ w => (none, w), fun _ w => (true, w)⟩

/-- One header, among rounds without any. -/
def fitfulScript : Nat → Round
  | 0 => .refused
  | 1 => .headers [⟨.clamp 7, .zero⟩]
  | 2 => .refused
  | _ => .headers []

/-- Two retries, and no backfill. -/
def twoRetries (delay : Span) : StreamSettings :=
  ⟨.ofSeconds 1, delay, delay, .clamp 2, false, .clamp 0⟩

/-- The header of the second round, though its block never comes, is worth two rounds
more: three of them are survived, and the fourth is the last, whatever would have come
behind it.  With the longest delays already the first wait is a panic. -/
theorem run_gives_up_fitful :
    let run := fun delay count =>
      run barrenConduit (twoRetries delay) (roundsOf fitfulScript count) (.new () none)
    let short := Span.ofSeconds 0
    (run short 3).1 = .ok (run short 3).2.stats
      ∧ (run short 9).1 = .error (.failed (.subscriptionLost (.clamp 2)))
      ∧ (run short 9).2.requests.count .subscribe = 4
      ∧ (run short 9).2.next = some (.clamp 8)
      ∧ (run .longest 9).1 = .error .panicked := by
  intro run short
  have hgives := fun delay => run_gives_up (c := barrenConduit) (fun _ _ => rfl) (twoRetries delay)
    fitfulScript () none
  have hfourth : ∀ delay, Exhausted fitfulScript (twoRetries delay).maxRetries.toNat 4 := by
    intro delay
    show Exhausted fitfulScript 2 4
    decide
  have hleast : ∀ delay, ∀ j < 4,
      ¬ Exhausted fitfulScript (twoRetries delay).maxRetries.toNat j := by
    intro delay
    show ∀ j < 4, ¬ Exhausted fitfulScript 2 j
    decide
  obtain ⟨hlost, hgoes, hroom⟩ := hgives short
  have hsmooth := fun rounds waits => hroom rounds waits (by decide) (.inl rfl)
  obtain ⟨herror, hhandled⟩ :=
    (hlost 4 (hfourth short) (hleast short) 9 (by decide)).1 (hsmooth 4 3)
  refine ⟨((hgoes 3 fun j hj => hleast short j (Nat.lt_succ_of_le hj)).1 (hsmooth 3 3)).1, herror,
    hhandled.subscriptions, ?_, ?_⟩
  · rw [hhandled.alongside.next]
    decide +kernel
  · have hoverlong : ¬ WaitFits barrenConduit.machine (twoRetries .longest) fitfulScript 0 := by
      decide +kernel
    exact ((hgives .longest).1 4 (hfourth .longest) (hleast .longest) 9 (by decide)).2
      fun hall => hoverlong (hall.fits 0 (by decide))

end FundTrail
