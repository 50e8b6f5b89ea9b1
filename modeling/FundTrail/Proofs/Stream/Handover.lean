/-
  FundTrail.Proofs.Stream.Handover
  ────────────────────────────────
  **BLOCKS ARE HANDED OVER UPWARDS, AND NONE IS PASSED BY UNSEEN.**

  What has been handed over and the height that is due are kept `Aligned`: the
  due height lies behind the last block, with backfill directly behind it.  A
  block comes only at a height that is `Due`, and with backfill that is the due
  height itself, unless a header has announced a block that is further ahead
  than the limit allows to go back.

  The surroundings may do with the blocks what they like, as long as they
  remember which they have taken (`Conduit.Records`), and the fetches may fail
  in any pattern.

  Main fact: `InStep.run`.
-/
import FundTrail.Proofs.Stream.Alike
import FundTrail.Session
import Mathlib.Data.List.Chain

namespace FundTrail

variable {σ : Type}

/-! ## §1. What is asked of the surroundings. -/

/-- A source is honest about `headers`: a block that it gives by number has that
number, and a block that it gives by the hash of one of the headers has the
number of the header. -/
structure BlockSource.Honest (source : BlockSource σ) (headers : List Header) : Prop where
  byNumber : ∀ number w batch,
    (source.byNumber number w).1 = some (.ok batch) → batch.number = number
  byHash : ∀ header ∈ headers, ∀ w batch,
    (source.byHash header.hash w).1 = some (.ok batch) → batch.number = header.number

/-- Fewer headers ask for less. -/
theorem BlockSource.Honest.mono {source : BlockSource σ} {headers part : List Header}
    (h : source.Honest headers) (hsub : part ⊆ headers) : source.Honest part :=
  ⟨h.byNumber, fun header hmem => h.byHash header (hsub hmem)⟩

/-- Where the blocks of a conduit come from. -/
def Conduit.source (c : Conduit σ) : BlockSource σ := ⟨c.byNumber, c.byHash⟩

/-- `sent` tells of every state of the surroundings which blocks have been taken. -/
structure Conduit.Records (c : Conduit σ) (sent : σ → List Batch) : Prop where
  byNumber : ∀ number w, sent (c.byNumber number w).2 = sent w
  byHash : ∀ hash w, sent (c.byHash hash w).2 = sent w
  taken : ∀ batch w, (c.deliver batch w).1 = true →
    sent (c.deliver batch w).2 = sent w ++ [batch]
  refused : ∀ batch w, (c.deliver batch w).1 = false → sent (c.deliver batch w).2 = sent w

/-! ## §2. Heights. -/

section Heights

open Streamer

/-- One of the headers is more than `limit` ahead of `next`, and `number` is as
far back from it as the limit. -/
def Skips (limit : Height) (headers : List Header) (next number : Nat) : Prop :=
  ∃ header ∈ headers, next + limit.toNat < header.number.toNat
    ∧ number + limit.toNat = header.number.toNat

/-- The block at `number` may be handed over when `next` is due. -/
def Due (settings : StreamSettings) (headers : List Header) (next number : Nat) : Prop :=
  next ≤ number ∧ (settings.backfill = true →
    number = next ∨ Skips settings.maxBackfill headers next number)

/-- The block at `b` may be handed over directly after the one at `a`. -/
def Follows (settings : StreamSettings) (headers : List Header) (a b : Height) : Prop :=
  a < b ∧ (settings.backfill = true →
    b.toNat = a.toNat + 1 ∨ Skips settings.maxBackfill headers (a.toNat + 1) b.toNat)

/-- The heights handed over so far fit the height that is due. -/
structure Aligned (settings : StreamSettings) (headers : List Header) (handed : List Height)
    (next : Option Height) : Prop where
  chain : handed.IsChain (Follows settings headers)
  /-- There is room for a height behind each. -/
  below : ∀ a ∈ handed, a.toNat + 1 < 2 ^ 64
  ahead : ∀ last ∈ handed.getLast?, ∃ n, next = some n ∧ last.toNat < n.toNat
    ∧ (settings.backfill = true → n.toNat = last.toNat + 1)

theorem Word.toNat_next_of_lt {a : Height} (h : a.toNat + 1 < 2 ^ 64) :
    a.next.toNat = a.toNat + 1 := by
  rw [Word.toNat_next]
  omega

variable {settings : StreamSettings} {headers : List Header} {handed : List Height}

theorem Due.refl (next : Nat) : Due settings headers next next :=
  ⟨Nat.le_refl next, fun _ => .inl rfl⟩

/-- The way back never begins before the height that is due. -/
theorem le_backfillStart (maxBackfill next number : Height) :
    next.toNat ≤ (backfillStart maxBackfill next number).toNat := by
  unfold backfillStart
  split
  next => exact Nat.le_refl _
  next hgap =>
    rw [Word.toNat_clamp]
    have := number.toNat_lt
    omega

/-- Nor does it begin behind the announced block. -/
theorem backfillStart_le (maxBackfill : Height) {next number : Height}
    (h : next.toNat ≤ number.toNat) :
    (backfillStart maxBackfill next number).toNat ≤ number.toNat := by
  unfold backfillStart
  split
  next => exact h
  next =>
    rw [Word.toNat_clamp]
    omega

/-- Going back as far as the limit allows ends at a height that is due. -/
theorem due_backfillStart (settings : StreamSettings) {header : Header}
    (hmem : header ∈ headers) {next : Height}
    (hle : next.toNat ≤ header.number.toNat) :
    Due settings headers next.toNat
      (backfillStart settings.maxBackfill next header.number).toNat
    ∧ (backfillStart settings.maxBackfill next header.number).toNat ≤ header.number.toNat := by
  refine ⟨⟨le_backfillStart _ _ _, fun _ => ?_⟩, backfillStart_le _ hle⟩
  have htop := header.number.toNat_lt
  unfold backfillStart
  split
  next => exact .inl rfl
  next hgap =>
    rw [Word.toNat_clamp]
    refine .inr ⟨header, hmem, ?_, ?_⟩ <;> omega

/-- A block that is due is handed over. -/
theorem Aligned.handOver {n number : Height} (h : Aligned settings headers handed (some n))
    (hdue : Due settings headers n.toNat number.toNat) (hlt : number.toNat + 1 < 2 ^ 64) :
    Aligned settings headers (handed ++ [number]) (some number.next) := by
  constructor
  · refine h.chain.append (.singleton _) ?_
    -- the block at the seam: what was due lies behind the last one
    intro last hlast x hx
    obtain rfl : number = x := Option.some.inj hx
    obtain ⟨m, hm, hless, hnext⟩ := h.ahead last hlast
    obtain rfl : n = m := Option.some.inj hm
    refine ⟨Nat.lt_of_lt_of_le hless hdue.1, fun hb => ?_⟩
    rw [← hnext hb]
    exact hdue.2 hb
  · intro a ha
    rcases List.mem_append.mp ha with ha | ha
    · exact h.below a ha
    · obtain rfl := List.mem_singleton.mp ha
      exact hlt
  · intro last hlast
    rw [List.getLast?_concat] at hlast
    obtain rfl : number = last := Option.some.inj hlast
    have hnext := Word.toNat_next_of_lt hlt
    exact ⟨_, rfl, by omega, fun _ => hnext⟩

/-- Nothing is due yet: then nothing has been handed over. -/
theorem Aligned.notice {next : Option Height} (h : Aligned settings headers handed next)
    (number : Height) : Aligned settings headers handed (some (next.getD number)) := by
  refine ⟨h.chain, h.below, fun last hlast => ?_⟩
  obtain ⟨n, rfl, hn⟩ := h.ahead last hlast
  exact ⟨n, rfl, hn⟩

/-- Without backfill a height may be given up. -/
theorem Aligned.giveUp {n number : Height} (h : Aligned settings headers handed (some n))
    (hb : settings.backfill = false) (hle : n.toNat ≤ number.toNat)
    (hlt : number.toNat + 1 < 2 ^ 64) :
    Aligned settings headers handed (some number.next) := by
  refine ⟨h.chain, h.below, fun last hlast => ?_⟩
  obtain ⟨m, hm, hless, -⟩ := h.ahead last hlast
  obtain rfl : n = m := Option.some.inj hm
  have hnext := Word.toNat_next_of_lt hlt
  exact ⟨_, rfl, by omega, by rw [hb]; exact nofun⟩

end Heights

/-! ## §3. Steps of a stream. -/

namespace Streamer

variable {c : Conduit σ} {s : Streamer σ}

/-- A count leaves everything else as it was, also when it panics. -/
theorem count_ends (c : Conduit σ) (k : Counter) (n : Nat) (s : Streamer σ) :
    (count c k n).Ends s fun r t => (r = .ok () ∨ r = .error .panicked)
      ∧ t.world = s.world ∧ t.next = s.next ∧ ∀ j ≠ k, t.stats.of j = s.stats.of j := by
  unfold Asking.Ends count
  split
  next => exact ⟨.inl rfl, rfl, rfl, fun j hj => StreamStats.of_set_of_ne _ hj _⟩
  next => exact ⟨.inr rfl, rfl, rfl, fun j _ => rfl⟩

/-- There is a height behind each but the last. -/
theorem moveBehind_of_lt {number : Height} (h : number.toNat + 1 < 2 ^ 64) :
    moveBehind c number = expect number.next := by
  unfold moveBehind
  rw [Word.plus?_one_of_lt h]

theorem handOff_of_taken {batch : Batch} (h : batch.number.toNat + 1 < 2 ^ 64)
    (htaken : (c.deliver batch s.world).1 = true) :
    handOff c batch s = count c .handedOff 1
      { s with world := (c.deliver batch s.world).2, next := some batch.number.next } := by
  have hdeliver : deliver c batch s
      = (.ok (), { s with world := (c.deliver batch s.world).2 }) := by
    show (if (c.deliver batch s.world).1 then _ else _, _) = _
    rw [htaken]
    rfl
  unfold handOff
  rw [Asking.bind_run_ok hdeliver, moveBehind_of_lt h]
  rfl

theorem handOff_of_refused {batch : Batch} (hrefused : (c.deliver batch s.world).1 = false) :
    handOff c batch s = (.error (.failed .consumerClosed),
      { s with world := (c.deliver batch s.world).2 }) := by
  unfold handOff
  refine Asking.bind_run_error ?_
  show (if (c.deliver batch s.world).1 then _ else _, _) = _
  rw [hrefused]
  rfl

/-- A fetched block was given by the source. -/
theorem given_of_inTime {limit : Span} {answer : Option (Except ChainError Batch)}
    {batch : Batch} (h : inTime limit answer = .ok batch) : answer = some (.ok batch) := by
  cases answer with
  | none => exact nomatch h
  | some answer => exact congrArg some h

end Streamer

/-! ## §4. A stream keeps in step. -/

/-- A stream is in step: behind `before` it has handed over the blocks `sent`,
and the height that is due fits. -/
def InStep (settings : StreamSettings) (headers : List Header) (sent : σ → List Batch)
    (before : List Height) (s : Streamer σ) : Prop :=
  Aligned settings headers (before ++ (sent s.world).map Batch.number) s.next

namespace InStep

open Streamer

section

variable {c : Conduit σ} {sent : σ → List Batch} {settings : StreamSettings}
  {headers : List Header} {before : List Height} {s : Streamer σ}

/-- Only the blocks taken and the height that is due matter. -/
theorem congr {t : Streamer σ} (h : InStep settings headers sent before s)
    (hw : sent t.world = sent s.world) (hn : t.next = s.next) :
    InStep settings headers sent before t := by
  unfold InStep
  rw [hw, hn]
  exact h

theorem count (h : InStep settings headers sent before s) (k : Counter) (n : Nat) :
    (Streamer.count c k n).Ends s fun _ t =>
      InStep settings headers sent before t ∧ t.next = s.next :=
  (count_ends c k n s).imp fun _ _ ⟨_, hw, hn, _⟩ => ⟨h.congr (congrArg sent hw) hn, hn⟩

theorem handOff (hr : c.Records sent) (h : InStep settings headers sent before s)
    {n : Height} (hn : s.next = some n) (batch : Batch)
    (hdue : Due settings headers n.toNat batch.number.toNat)
    (hlt : batch.number.toNat + 1 < 2 ^ 64) :
    (Streamer.handOff c batch).Ends s fun r t => InStep settings headers sent before t
      ∧ (r = .ok () → t.next = some batch.number.next) := by
  unfold Asking.Ends
  cases ht : (c.deliver batch s.world).1 with
  | false =>
    rw [handOff_of_refused ht]
    -- nobody takes the block: nothing is due but what was
    exact ⟨h.congr (hr.refused batch s.world ht) rfl, nofun⟩
  | true =>
    rw [handOff_of_taken hlt ht]
    -- the block joins those handed over, and is counted
    have hjoined : InStep settings headers sent before
        { s with world := (c.deliver batch s.world).2, next := some batch.number.next } := by
      show Aligned settings headers (before ++ (sent (c.deliver batch s.world).2).map _) _
      rw [hr.taken batch s.world ht, List.map_append, ← List.append_assoc]
      unfold InStep at h
      rw [hn] at h
      exact h.handOver hdue hlt
    obtain ⟨hstep, hnext⟩ := hjoined.count (c := c) .handedOff 1
    exact ⟨hstep, fun _ => hnext⟩

end

section

variable {c : Conduit σ} {sent : σ → List Batch} (hr : c.Records sent)
  {settings : StreamSettings} {headers : List Header} (hhonest : c.source.Honest headers)
  (hbound : ∀ header ∈ headers, header.number.toNat + 1 < 2 ^ 64)
  {before : List Height} {s : Streamer σ}

include hr hhonest

/-- An honest source gives the block that was asked for, if it gives any. -/
theorem fetchByNumber (h : InStep settings headers sent before s) (limit : Span)
    (number : Height) :
    (Streamer.fetchByNumber c limit number).Ends s fun r t =>
      InStep settings headers sent before t ∧ t.next = s.next
        ∧ ∀ batch, r = .ok (.ok batch) → batch.number = number :=
  ⟨h.congr (hr.byNumber number s.world) rfl, rfl, fun batch hbatch =>
    hhonest.byNumber number s.world batch (given_of_inTime (Except.ok.inj hbatch))⟩

theorem fetchByHash (h : InStep settings headers sent before s) (limit : Span)
    {header : Header} (hmem : header ∈ headers) :
    (Streamer.fetchByHash c limit header.hash).Ends s fun r t =>
      InStep settings headers sent before t ∧ t.next = s.next
        ∧ ∀ batch, r = .ok (.ok batch) → batch.number = header.number :=
  ⟨h.congr (hr.byHash header.hash s.world) rfl, rfl, fun batch hbatch =>
    hhonest.byHash header hmem s.world batch (given_of_inTime (Except.ok.inj hbatch))⟩

/-- Along the way back the due height goes up by one with every block; when all
have come, the height behind them is due. -/
theorem backfill (h : InStep settings headers sent before s) (limit : Span) (more : Nat)
    (number : Height) {n : Height} (hn : s.next = some n)
    (hdue : Due settings headers n.toNat number.toNat)
    (hlt : number.toNat + more + 1 < 2 ^ 64) :
    (Streamer.backfill c limit more number).Ends s fun r t =>
      InStep settings headers sent before t
        ∧ (r = .ok true →
          ∃ n, t.next = some n ∧ Due settings headers n.toNat (number.toNat + more)) := by
  induction more generalizing number n s with
  | zero => exact ⟨h, fun _ => ⟨n, hn, hdue⟩⟩
  | succ more ih =>
    refine (h.fetchByNumber hr hhonest limit number).bind ?_ fun _ _ ⟨hstep, _⟩ => ⟨hstep, nofun⟩
    rintro answer t ⟨hstep, hkeep, hgiven⟩
    cases answer with
    | error e => exact ⟨hstep, nofun⟩
    | ok batch =>
      obtain rfl := hgiven batch rfl
      refine (hstep.count .backfilled 1).bind ?_ fun _ _ ⟨hstep, _⟩ => ⟨hstep, nofun⟩
      rintro ⟨⟩ t' ⟨hstep, hkeep'⟩
      have hnext := hkeep'.trans (hkeep.trans hn)
      refine (handOff hr hstep hnext batch hdue (by omega)).bind ?_
        fun _ _ ⟨hstep, _⟩ => ⟨hstep, nofun⟩
      rintro ⟨⟩ t'' ⟨hstep, hmoved⟩
      -- the next height is due now, and the way is one block shorter
      have hbehind := Word.toNat_next_of_lt (a := batch.number) (by omega)
      have hrest := ih hstep batch.number.next (hmoved rfl) (Due.refl _) (by omega)
      rw [hbehind, Nat.add_right_comm, Nat.add_assoc] at hrest
      exact hrest

include hbound

theorem announced (h : InStep settings headers sent before s) {header : Header}
    (hmem : header ∈ headers) {n : Height} (hn : s.next = some n)
    (hdue : Due settings headers n.toNat header.number.toNat) :
    (Streamer.announced c settings header).Ends s fun _ t =>
      InStep settings headers sent before t := by
  have hlt := hbound header hmem
  refine (h.fetchByHash hr hhonest settings.fetchTimeout hmem).bind ?_ fun _ _ h => h.1
  rintro answer t ⟨hstep, hkeep, hgiven⟩
  have hnext := hkeep.trans hn
  cases answer with
  | ok batch =>
    have hnumber := hgiven batch rfl
    exact (handOff hr hstep hnext batch (hnumber ▸ hdue) (hnumber ▸ hlt)).imp fun _ _ h => h.1
  | error e =>
    show Asking.Ends (if settings.backfill then _ else _) t _
    cases hb : settings.backfill with
    | true => exact hstep
    | false =>
      -- the block is given up, and what is behind it is due
      rw [if_neg nofun]
      refine (hstep.count .dropped 1).bind ?_ fun _ _ h => h.1
      rintro ⟨⟩ t' ⟨hstep, hkeep'⟩
      rw [moveBehind_of_lt hlt]
      unfold InStep at hstep
      rw [hkeep'.trans hnext] at hstep
      exact hstep.giveUp hb hdue.1 hlt

theorem caughtUp (h : InStep settings headers sent before s) {header : Header}
    (hmem : header ∈ headers) {n : Height} (hn : s.next = some n)
    (hle : n.toNat ≤ header.number.toNat) :
    (Streamer.caughtUp c settings n header).Ends s fun _ t =>
      InStep settings headers sent before t := by
  have hlt := hbound header hmem
  obtain ⟨hdue, hstart⟩ := due_backfillStart settings hmem hle
  unfold Streamer.caughtUp
  generalize backfillStart settings.maxBackfill n header.number = start at hdue hstart
  refine (h.count .dropped _).bind ?_ fun _ _ h => h.1
  rintro ⟨⟩ t ⟨hstep, hkeep⟩
  refine (hstep.backfill hr hhonest settings.fetchTimeout (header.number.toNat - start.toNat)
    start (hkeep.trans hn) hdue (by omega)).bind ?_ fun _ _ h => h.1
  rintro full t' ⟨hstep, hbehind⟩
  cases full with
  | false => exact hstep
  | true =>
    obtain ⟨n', hn', hdue'⟩ := hbehind rfl
    rw [show start.toNat + (header.number.toNat - start.toNat) = header.number.toNat by omega]
      at hdue'
    exact hstep.announced hr hhonest hbound hmem hn' hdue'

/-- **A header leaves a stream in step.** -/
theorem onHeader (h : InStep settings headers sent before s) {header : Header}
    (hmem : header ∈ headers) :
    (Streamer.onHeader c settings header).Ends s fun _ t =>
      InStep settings headers sent before t := by
  refine (h.count .headers 1).bind ?_ fun _ _ h => h.1
  rintro ⟨⟩ t ⟨hstep, -⟩
  -- from now on something is due
  have hnoticed := Aligned.notice hstep header.number
  refine Asking.Ends.bind_of_ok rfl ?_
  generalize t.next.getD header.number = next at hnoticed ⊢
  have hn : ({ t with next := some next } : Streamer σ).next = some next := rfl
  have hstep : InStep settings headers sent before { t with next := some next } := hnoticed
  by_cases hlow : header.number < next
  · -- a header from below is passed over
    rw [if_pos hlow]
    exact hstep
  rw [if_neg hlow]
  have hle : next.toNat ≤ header.number.toNat := Nat.le_of_not_lt hlow
  cases hb : settings.backfill with
  | false =>
    -- without backfill the announced block is next, wherever it is
    refine hstep.announced hr hhonest hbound hmem hn ⟨hle, ?_⟩
    rw [hb]
    exact nofun
  | true => exact hstep.caughtUp hr hhonest hbound hmem hn hle

theorem onHeaders (h : InStep settings headers sent before s) {part : List Header}
    (hsub : part ⊆ headers) :
    (Streamer.onHeaders c settings part).Ends s fun _ t =>
      InStep settings headers sent before t := by
  induction part generalizing s with
  | nil => exact h
  | cons header rest ih =>
    refine (h.onHeader hr hhonest hbound (hsub List.mem_cons_self)).bind ?_ fun _ _ h => h
    exact fun _ t hstep => ih hstep (List.Subset.trans (List.subset_cons_self header rest) hsub)

theorem throughRound (h : InStep settings headers sent before s) {round : Round}
    (hsub : headersOf round ⊆ headers) (backoff : Backoff) :
    (Streamer.throughRound c settings backoff round).Ends s fun _ t =>
      InStep settings headers sent before t := by
  refine Asking.Ends.bind (x := subscribe) (Q := fun _ t => InStep settings headers sent before t)
    (h.congr rfl rfl) (fun _ t hstep => ?_) fun _ _ h => h
  refine (hstep.onHeaders hr hhonest hbound hsub).bind (fun _ t hstep => ?_) fun _ _ h => h
  refine Asking.Ends.bind (x := waitOut c _) (Q := fun _ t => InStep settings headers sent before t)
    ?_ (fun backoff t hstep => ?_) fun _ _ h => h
  · unfold Asking.Ends waitOut
    split <;> exact hstep
  · exact (hstep.count .resubscriptions 1).bind (fun _ t h => h.1) fun _ _ h => h.1

theorem through (h : InStep settings headers sent before s) {rounds : List Round}
    (hsub : ∀ round ∈ rounds, headersOf round ⊆ headers) (backoff : Backoff) :
    (Streamer.through c settings rounds backoff).Ends s fun _ t =>
      InStep settings headers sent before t := by
  induction rounds generalizing s backoff with
  | nil => exact h
  | cons round rounds ih =>
    refine (h.throughRound hr hhonest hbound (hsub round List.mem_cons_self) backoff).bind ?_
      fun _ _ h => h
    exact fun backoff t hstep =>
      ih hstep (fun round hmem => hsub round (List.mem_cons_of_mem _ hmem)) backoff

/-- **A stream that begins in step stays in step through all its rounds.** -/
theorem run (h : InStep settings headers sent before s) {rounds : List Round}
    (hsub : ∀ round ∈ rounds, headersOf round ⊆ headers) :
    InStep settings headers sent before (Streamer.run c settings rounds s).2 :=
  (h.through hr hhonest hbound hsub _).bind
    (R := fun _ t => InStep settings headers sent before t)
    (fun _ _ hstep => hstep.congr rfl rfl) fun _ _ h => h

end

end InStep

end FundTrail
