/-
  FundTrail.Proofs.Stream.Recount
  ───────────────────────────────
  **WHAT A STREAM COUNTS AS DROPPED.**

  Every height that a stream with backfill leaves behind it has been handed over or
  was out of reach of a header, and is one of these once.  The statistics say more
  than that.  A header counts what is out of its reach before anything has been
  fetched; if the first fetch fails, the stream stays where it was, and whatever
  has been counted is still ahead of it: to be counted again, or even to be handed
  over.  So the heights add up exactly as long as nothing has been counted in vain,
  or so much that the count has come round to where it was.

  An account of the headers that have arrived is kept from header to header
  (`Recounted.header`), and every header of a run finds a stream with such an account
  (`CarriedAlong.run`).

  Main fact: `dropped_counts_vain_reaches`.
-/
import FundTrail.Proofs.Stream.Pursuit

namespace FundTrail

open Streamer

variable {σ : Type}

/-! ## §1. The arrivals of a run. -/

/-- A header, and the stream that it finds. -/
structure Arrival (σ : Type) where
  header : Header
  found : Streamer σ

namespace Streamer

variable (c : Conduit σ) (settings : StreamSettings)

/-- The arrivals in a round, up to the first that ends the stream. -/
def arrivals : List Header → Streamer σ → List (Arrival σ)
  | [], _ => []
  | header :: headers, s =>
    ⟨header, s⟩ :: match onHeader c settings header s with
      | (.ok (), t) => arrivals headers t
      | (.error _, _) => []

/-- The arrivals in rounds. -/
def arrivalsFrom : List Round → Backoff → Streamer σ → List (Arrival σ)
  | [], _, _ => []
  | round :: rounds, backoff, s =>
    arrivals c settings (headersOf round) (subscribe s).2 ++
      match throughRound c settings backoff round s with
      | (.ok backoff, t) => arrivalsFrom rounds backoff t
      | (.error _, _) => []

/-- All headers that arrive in a run, in order, each with the stream that it finds. -/
def arrivalsOf (rounds : List Round) (s : Streamer σ) : List (Arrival σ) :=
  arrivalsFrom c settings rounds
    (.new settings.initialDelay settings.maxDelay settings.maxRetries) s

end Streamer

/-- Each of these arrivals is as `Q` has it, with those before it as its past. -/
def EachWithPast (Q : Arrival σ → List (Arrival σ) → Prop) :
    List (Arrival σ) → List (Arrival σ) → Prop
  | _, [] => True
  | past, a :: later => Q a past ∧ EachWithPast Q (past ++ [a]) later

namespace EachWithPast

variable {Q : Arrival σ → List (Arrival σ) → Prop} {past l m : List (Arrival σ)}

theorem append (hl : EachWithPast Q past l) (hm : EachWithPast Q (past ++ l) m) :
    EachWithPast Q past (l ++ m) := by
  induction l generalizing past with
  | nil =>
    rw [List.append_nil] at hm
    exact hm
  | cons a l ih =>
    refine ⟨hl.1, ih hl.2 ?_⟩
    rw [List.append_assoc]
    exact hm

/-- Any of the arrivals may be picked out. -/
theorem apply {earlier later : List (Arrival σ)} {a : Arrival σ}
    (h : EachWithPast Q past (earlier ++ a :: later)) : Q a (past ++ earlier) := by
  induction earlier generalizing past with
  | nil =>
    rw [List.append_nil]
    exact h.1
  | cons b earlier ih =>
    have hrest := ih h.2
    rw [List.append_assoc] at hrest
    exact hrest

end EachWithPast

/-- A property of streams and of what has arrived is carried along: by every one of
the headers that is handled, and by the subscriptions. -/
structure CarriedAlong (c : Conduit σ) (settings : StreamSettings) (headers : List Header)
    (P : Streamer σ → List (Arrival σ) → Prop) : Prop where
  header : ∀ {s past header}, header ∈ headers → P s past →
    (onHeader c settings header s).1 = .ok () →
    P (onHeader c settings header s).2 (past ++ [⟨header, s⟩])
  subscribed : ∀ {s past}, P s past → P (subscribe s).2 past
  resubscribed : ∀ {s past}, P s past → P (count c .resubscriptions 1 s).2 past

namespace CarriedAlong

variable {c : Conduit σ} {settings : StreamSettings} {headers : List Header}
  {P : Streamer σ → List (Arrival σ) → Prop} (hP : CarriedAlong c settings headers P)

include hP

/-- **From header to header**: each finds a stream with the property, and so does what
comes behind them all. -/
theorem onHeaders {part : List Header} (hsub : part ⊆ headers) {s : Streamer σ}
    {past : List (Arrival σ)} (h : P s past) :
    EachWithPast (fun a past => a.header ∈ headers ∧ P a.found past) past
        (arrivals c settings part s)
      ∧ (Streamer.onHeaders c settings part).Ends s fun result t =>
        result = .ok () → P t (past ++ arrivals c settings part s) := by
  induction part generalizing s past with
  | nil =>
    refine ⟨trivial, fun _ => ?_⟩
    rw [show arrivals c settings [] s = [] from rfl, List.append_nil]
    exact h
  | cons header rest ih =>
    have hmem := hsub List.mem_cons_self
    have hone := hP.header hmem h
    unfold Asking.Ends
    show _ ∧ ((Asking.andThen _ _ s).1 = _ → P (Asking.andThen _ _ s).2 _)
    unfold Asking.andThen arrivals
    rcases hs : onHeader c settings header s with ⟨e | ⟨⟨⟩⟩, t⟩
    · exact ⟨⟨⟨hmem, h⟩, trivial⟩, nofun⟩
    · rw [hs] at hone
      obtain ⟨hfound, hends⟩ :=
        ih (List.Subset.trans (List.subset_cons_self header rest) hsub) (hone rfl)
      refine ⟨⟨⟨hmem, h⟩, hfound⟩, fun hok => ?_⟩
      have hall := hends hok
      rw [List.append_assoc] at hall
      exact hall

/-- **From round to round.** -/
theorem throughRound {round : Round} (hsub : headersOf round ⊆ headers) (backoff : Backoff)
    {s : Streamer σ} {past : List (Arrival σ)} (h : P s past) :
    (throughRound c settings backoff round).Ends s fun result t => ∀ b, result = .ok b →
      P t (past ++ arrivals c settings (headersOf round) (subscribe s).2) := by
  refine .bind_of_ok rfl ?_
  refine (hP.onHeaders hsub (hP.subscribed h)).2.bind (fun _ u hu => ?_) fun _ _ _ => nofun
  -- the wait leaves the stream as it is
  have hwait : ∀ b, (waitOut c b).Ends u fun _ v => v = u := by
    intro b
    unfold Asking.Ends waitOut
    split <;> rfl
  refine (hwait _).bind ?_ fun _ _ _ => nofun
  rintro b _ rfl
  have hcounted := hP.resubscribed (hu rfl)
  exact Asking.Ends.bind (Q := fun _ v => P v _) hcounted (fun _ v hv _ _ => hv)
    fun _ _ _ => nofun

theorem through {rounds : List Round} (hsub : ∀ round ∈ rounds, headersOf round ⊆ headers)
    (backoff : Backoff) {s : Streamer σ} {past : List (Arrival σ)} (h : P s past) :
    EachWithPast (fun a past => a.header ∈ headers ∧ P a.found past) past
      (arrivalsFrom c settings rounds backoff s) := by
  induction rounds generalizing s past backoff with
  | nil => trivial
  | cons round rounds ih =>
    have hround := hsub round List.mem_cons_self
    have hends := hP.throughRound hround backoff h
    unfold arrivalsFrom
    refine (hP.onHeaders hround (hP.subscribed h)).1.append ?_
    unfold Asking.Ends at hends
    rcases hs : Streamer.throughRound c settings backoff round s with ⟨e | b, t⟩
    · trivial
    · rw [hs] at hends
      exact ih (fun round hmem => hsub round (List.mem_cons_of_mem _ hmem)) b (hends b rfl)

/-- **What is carried along from header to header is found by every header of a run.** -/
theorem run {rounds : List Round} (hsub : ∀ round ∈ rounds, headersOf round ⊆ headers)
    {s : Streamer σ} (h : P s []) {earlier later : List (Arrival σ)} {a : Arrival σ}
    (hsplit : arrivalsOf c settings rounds s = earlier ++ a :: later) :
    a.header ∈ headers ∧ P a.found earlier := by
  have hall := hP.through hsub
    (.new settings.initialDelay settings.maxDelay settings.maxRetries) h
  rw [show arrivalsFrom c settings rounds _ s = earlier ++ a :: later from hsplit] at hall
  exact hall.apply

end CarriedAlong

/-! ## §2. Heights out of reach. -/

/-- The height that is due when a header arrives. -/
def Arrival.due (a : Arrival σ) : Height := a.found.next.getD a.header.number

/-- The heights that are due but out of reach of a header, which it counts as
dropped. -/
def Arrival.outOfReach (settings : StreamSettings) (a : Arrival σ) : List Nat :=
  List.range' a.due.toNat
    ((backfillStart settings.maxBackfill a.due a.header.number).toNat - a.due.toNat)

/-- The blocks that are handed over when a header arrives. -/
def Arrival.brought (c : Conduit σ) (settings : StreamSettings) (a : Arrival σ) : List Batch :=
  batchesIn (incidents c settings a.header a.found)

/-- Some block is handed over when a header arrives. -/
def Arrival.isAnswered (c : Conduit σ) (settings : StreamSettings) (a : Arrival σ) : Bool :=
  !(a.brought c settings).isEmpty

/-- The heights that a stream has left behind it because they were out of reach. -/
def passedOver (c : Conduit σ) (settings : StreamSettings) (past : List (Arrival σ)) :
    List Nat :=
  (past.filter (Arrival.isAnswered c settings)).flatMap (Arrival.outOfReach settings)

/-- The heights that have been counted as dropped by a header for which no block was
handed over. -/
def countedInVain (c : Conduit σ) (settings : StreamSettings) (past : List (Arrival σ)) :
    List Nat :=
  (past.filter fun a => !a.isAnswered c settings).flatMap (Arrival.outOfReach settings)

section

variable {c : Conduit σ} {settings : StreamSettings} (past : List (Arrival σ)) {a : Arrival σ}

theorem passedOver_concat :
    passedOver c settings (past ++ [a])
      = passedOver c settings past
        ++ if a.isAnswered c settings then a.outOfReach settings else [] := by
  unfold passedOver
  rw [List.filter_append, List.flatMap_append, List.filter_cons]
  split
  next => exact congrArg _ (List.append_nil _)
  next => rfl

theorem countedInVain_concat :
    countedInVain c settings (past ++ [a])
      = countedInVain c settings past
        ++ if a.isAnswered c settings then [] else a.outOfReach settings := by
  unfold countedInVain
  rw [List.filter_append, List.flatMap_append, List.filter_cons]
  cases a.isAnswered c settings with
  | true => rfl
  | false => exact congrArg _ (List.append_nil _)

end

/-- What the surroundings have been handed at a header is what the log tells. -/
theorem sent_onHeader {c : Conduit σ} {sent : σ → List Batch} (hr : c.Records sent)
    (hopen : c.Open) (settings : StreamSettings) (header : Header) (s : Streamer σ) :
    sent (onHeader c settings header s).2.world
      = sent s.world ++ batchesIn (incidents c settings header s) := by
  -- the surroundings and the log stay in step
  have hkeeps : c.recorded.Keeps fun w => sent w.1 = sent s.world ++ batchesIn w.2 := by
    refine ⟨fun number w hw => ?_, fun hash w hw => ?_, fun batch w hw => ?_⟩
    · show sent (c.byNumber number w.1).2 = _ ++ batchesIn (w.2 ++ [.fetched _ _])
      rw [hr.byNumber, hw, batchesIn_append]
      exact congrArg _ (List.append_nil _).symm
    · show sent (c.byHash hash w.1).2 = _ ++ batchesIn (w.2 ++ [.fetched _ _])
      rw [hr.byHash, hw, batchesIn_append]
      exact congrArg _ (List.append_nil _).symm
    · show sent (c.deliver batch w.1).2
        = _ ++ batchesIn (if (c.deliver batch w.1).1 then w.2 ++ [.handedOver batch] else w.2)
      rw [if_pos (hopen batch w.1), hr.taken batch w.1 (hopen batch w.1), hw, batchesIn_append,
        List.append_assoc]
      rfl
  let s' : Streamer (σ × List Incident) := { s with world := (s.world, []) }
  have hlogged := (hkeeps.alike.lockstep.onHeader settings header s' s'
    ⟨⟨rfl, (List.append_nil _).symm⟩, rfl, rfl, rfl⟩).2.world.2
  have hworld := (c.recorded_alike.lockstep.onHeader settings header s s'
    ⟨rfl, rfl, rfl, rfl⟩).2.world
  rw [hworld]
  exact hlogged

/-- **What becomes of a header that is handled.**  It counts what is out of its reach;
and either no block is handed over and the height that was due stays due, or blocks are
handed over from behind what is out of reach, and the height behind them is due. -/
theorem arrival_cases {c : Conduit σ} {sent : σ → List Batch} {settings : StreamSettings}
    (hr : c.Records sent) (hopen : c.Open) (hb : settings.backfill = true) (a : Arrival σ)
    (hhonest : c.source.Honest [a.header]) (hlt : a.header.number.toNat + 1 < 2 ^ 64)
    (hok : (onHeader c settings a.header a.found).1 = .ok ()) :
    let s := a.found
    let t := (onHeader c settings a.header s).2
    s.stats.dropped.plus? c.machine.overflow (a.outOfReach settings).length
        = some t.stats.dropped
    ∧ ((a.isAnswered c settings = false
          ∧ heights (sent t.world) = heights (sent s.world)
          ∧ t.stats.handedOff = s.stats.handedOff ∧ t.next = some a.due)
      ∨ ∃ start count due, a.isAnswered c settings = true
          ∧ a.due.toNat ≤ start
          ∧ a.outOfReach settings = List.range' a.due.toNat (start - a.due.toNat)
          ∧ heights (sent t.world) = heights (sent s.world) ++ List.range' start count
          ∧ s.stats.handedOff.plus? c.machine.overflow count = some t.stats.handedOff
          ∧ t.next = some due ∧ due.toNat = start + count) := by
  intro s t
  have hbrings := onHeader_brings hhonest hopen hlt settings s
  unfold Asking.Ends at hbrings
  rw [hok] at hbrings
  obtain ⟨batches, hfollowed, hheights, hcounts, hdue⟩ := hbrings
  change Followed (requestsAt settings a.due a.header) batches _ at hfollowed
  change heights batches = List.range' (firstAt settings a.due a.header) _ at hheights
  change t.next = some (dueBehind settings a.due a.header batches) at hdue
  have hbrought : a.brought c settings = batches := hfollowed.batchesIn_eq
  have hsent : heights (sent t.world) = heights (sent s.world) ++ heights batches := by
    rw [sent_onHeader hr hopen, heights_append, ← hbrought]
    rfl
  have hoff : s.stats.handedOff.plus? c.machine.overflow batches.length
      = some t.stats.handedOff := by
    have hcount := hcounts .handedOff
    simp only [count_handedOff_countedAt, hfollowed.batchesIn_eq] at hcount
    exact hcount
  refine ⟨?_, ?_⟩
  · have hcount := hcounts .dropped
    simp only [count_dropped_countedAt hb] at hcount
    unfold Arrival.outOfReach
    rw [List.length_range']
    rw [outOfReach, if_pos hb] at hcount
    exact hcount
  · cases batches with
    | nil =>
      refine .inl ⟨?_, hsent.trans (List.append_nil _), ?_, ?_⟩
      · unfold Arrival.isAnswered
        rw [hbrought]
        rfl
      · exact Option.some.inj (hoff.symm.trans Word.plus?_zero)
      · rw [hdue, dueBehind_nil hb]
    | cons batch batches =>
      -- a block has come, so the header is not one from below
      have hle : a.due ≤ a.header.number := by
        refine Nat.le_of_not_lt fun hlow => ?_
        rw [requestsAt_of_lt hlow] at hfollowed
        cases hfollowed
      have hfirst : firstAt settings a.due a.header
          = (backfillStart settings.maxBackfill a.due a.header.number).toNat := if_pos hb
      have hreach := backfillStart_le settings.maxBackfill hle
      have hbound := hfollowed.length_le
      rw [requestsAt_of_backfill hle hb, List.length_append, length_byNumbers,
        List.length_singleton] at hbound
      rw [dueBehind_of_backfill hle hb, if_neg (List.cons_ne_nil _ _)] at hdue
      rw [hfirst] at hbound hdue hheights
      refine .inr ⟨_, (batch :: batches).length, _, ?_, le_backfillStart _ _ _, rfl, ?_, hoff,
        hdue, ?_⟩
      · unfold Arrival.isAnswered
        rw [hbrought]
        rfl
      · rw [hsent, hheights]
      · have hreach : (backfillStart settings.maxBackfill a.due a.header.number).toNat
          ≤ a.header.number.toNat := hreach
        rw [Word.toNat_clamp]
        exact Nat.min_eq_left (by omega)

/-- Heights up to `b` and from there on up to `c` are heights up to `c`. -/
theorem range'_append_range' {a b c : Nat} (hab : a ≤ b) (hbc : b ≤ c) :
    List.range' a (b - a) ++ List.range' b (c - b) = List.range' a (c - a) := by
  have hseam := List.range'_append_1 (s := a) (m := b - a) (n := c - b)
  rw [show a + (b - a) = b by omega, show b - a + (c - b) = c - a by omega] at hseam
  exact hseam

/-- Heights passed over and heights handed over join those that are accounted for. -/
theorem perm_heights_append {handed passed : List Nat} {first due start : Nat}
    (h : (handed ++ passed).Perm (List.range' first (due - first))) (hdue : first ≤ due)
    (hstart : due ≤ start) (count : Nat) :
    (handed ++ List.range' start count ++ (passed ++ List.range' due (start - due))).Perm
      (List.range' first (start + count - first)) := by
  have hcount : List.range' start count = List.range' start (start + count - start) := by
    rw [Nat.add_sub_cancel_left]
  calc handed ++ List.range' start count ++ (passed ++ List.range' due (start - due))
      = handed ++ (List.range' start count ++ (passed ++ List.range' due (start - due))) :=
        List.append_assoc _ _ _
    List.Perm _ (handed ++ (passed ++ List.range' due (start - due) ++ List.range' start count)) :=
        List.perm_append_comm.append_left handed
    _ = handed ++ passed ++ List.range' due (start - due) ++ List.range' start count := by
        rw [List.append_assoc, List.append_assoc, List.append_assoc]
    List.Perm _ (List.range' first (due - first) ++ List.range' due (start - due)
          ++ List.range' start count) := (h.append_right _).append_right _
    _ = List.range' first (start + count - first) := by
        rw [range'_append_range' hdue hstart, hcount,
          range'_append_range' (Nat.le_trans hdue hstart) (Nat.le_add_right start count)]

/-! ## §3. The account of a stream. -/

/-- The height with which a stream begins: the one it resumes at, or that of the
first header. -/
def firstHeight (resume : Option Height) (past : List (Arrival σ)) : Option Height :=
  resume.or (past.head?.map fun a => a.header.number)

theorem firstHeight_concat (resume : Option Height) (past : List (Arrival σ)) (a : Arrival σ) :
    firstHeight resume (past ++ [a]) = some ((firstHeight resume past).getD a.header.number) := by
  unfold firstHeight
  cases resume with
  | some n => rfl
  | none =>
    cases past with
    | nil => rfl
    | cons first past => rfl

/-- What a stream has handed over and what it has passed over make up the heights
from the first one up to below the one that is due; and its statistics count both,
and besides them what has been counted in vain.  `number` stands for the first
header as long as none has arrived. -/
structure Recounted (c : Conduit σ) (settings : StreamSettings) (sent : σ → List Batch) (w : σ)
    (resume : Option Height) (s : Streamer σ) (past : List (Arrival σ)) : Prop where
  handed : ∃ handed, heights (sent s.world) = heights (sent w) ++ handed
    ∧ (0 : Count).plus? c.machine.overflow handed.length = some s.stats.handedOff
    ∧ ∀ number : Height,
      let first := ((firstHeight resume past).getD number).toNat
      let due := (s.next.getD number).toNat
      first ≤ due ∧ (handed ++ passedOver c settings past).Perm (List.range' first (due - first))
  dropped : (0 : Count).plus? c.machine.overflow
      ((passedOver c settings past).length + (countedInVain c settings past).length)
    = some s.stats.dropped

namespace Recounted

variable {c : Conduit σ} {settings : StreamSettings} {sent : σ → List Batch} {w : σ}
  {resume : Option Height} {s : Streamer σ} {past : List (Arrival σ)}

theorem new (c : Conduit σ) (settings : StreamSettings) (sent : σ → List Batch) (w : σ)
    (resume : Option Height) : Recounted c settings sent w resume (.new w resume) [] where
  handed := by
    refine ⟨[], (List.append_nil _).symm, Word.plus?_zero, fun number => ?_⟩
    show ((resume.or none).getD number).toNat ≤ (resume.getD number).toNat ∧ List.Perm []
      (List.range' _ ((resume.getD number).toNat - ((resume.or none).getD number).toNat))
    rw [Option.or_none, Nat.sub_self]
    exact ⟨Nat.le_refl _, .nil⟩
  dropped := Word.plus?_zero

/-- Only the blocks handed over, the height that is due and the two counts matter. -/
theorem congr (h : Recounted c settings sent w resume s past) {t : Streamer σ}
    (hworld : t.world = s.world) (hnext : t.next = s.next)
    (hhandedOff : t.stats.handedOff = s.stats.handedOff)
    (hdropped : t.stats.dropped = s.stats.dropped) :
    Recounted c settings sent w resume t past where
  handed := by
    rw [hworld, hnext, hhandedOff]
    exact h.handed
  dropped := by
    rw [hdropped]
    exact h.dropped

/-- Neither is a count of subscriptions. -/
theorem resubscribed (h : Recounted c settings sent w resume s past) :
    Recounted c settings sent w resume (count c .resubscriptions 1 s).2 past := by
  unfold Streamer.count
  split
  next => exact h.congr rfl rfl rfl rfl
  next => exact h

/-- **A header is accounted for** when it has been handled.  If blocks come of it, what
was out of its reach is behind the stream; if none come, the stream stays, and has counted
in vain. -/
theorem header (hr : c.Records sent) (hopen : c.Open) (hb : settings.backfill = true)
    {header : Header} (hhonest : c.source.Honest [header])
    (hlt : header.number.toNat + 1 < 2 ^ 64)
    (h : Recounted c settings sent w resume s past)
    (hok : (onHeader c settings header s).1 = .ok ()) :
    Recounted c settings sent w resume (onHeader c settings header s).2
      (past ++ [⟨header, s⟩]) := by
  obtain ⟨handed, hsent, hcount, hheights⟩ := h.handed
  obtain ⟨hle, hperm⟩ := hheights header.number
  obtain ⟨hdropped, harrival⟩ := arrival_cases hr hopen hb ⟨header, s⟩ hhonest hlt hok
  have hstart := firstHeight_concat resume past ⟨header, s⟩
  rw [Word.plus?_plus? h.dropped] at hdropped
  rcases harrival with
    ⟨hanswered, hworld, hoff, hnext⟩
    | ⟨start, count, due, hanswered, hdue, hreach, hworld, hoff, hnext, hbehind⟩
  · -- the stream has stayed
    have hpassed : passedOver c settings (past ++ [⟨header, s⟩]) = passedOver c settings past := by
      rw [passedOver_concat, hanswered]
      exact List.append_nil _
    refine ⟨⟨handed, ?_, ?_, fun number => ?_⟩, ?_⟩
    · rw [hworld, hsent]
    · rw [hcount, hoff]
    · rw [hstart, hpassed, hnext]
      exact ⟨hle, hperm⟩
    · rw [← hdropped, hpassed, countedInVain_concat, hanswered, List.length_append,
        Nat.add_assoc]
      rfl
  · -- it has moved behind the last block
    rw [Word.plus?_plus? hcount] at hoff
    refine ⟨⟨handed ++ List.range' start count, ?_, ?_, fun number => ?_⟩, ?_⟩
    · rw [hworld, hsent, List.append_assoc]
    · rw [← hoff, List.length_append, List.length_range']
    · rw [hstart, passedOver_concat, hanswered, hreach, hnext]
      show _ ≤ due.toNat ∧ List.Perm _ (List.range' _ (due.toNat - _))
      rw [hbehind]
      have hfirst : ((firstHeight resume past).getD header.number).toNat ≤ start + count :=
        Nat.le_trans (Nat.le_trans hle hdue) (Nat.le_add_right start count)
      exact ⟨hfirst, perm_heights_append hperm hle hdue count⟩
    · rw [← hdropped, passedOver_concat, countedInVain_concat, hanswered, if_pos rfl, if_pos rfl,
        List.append_nil, List.length_append, Nat.add_right_comm]

/-- Behind a header some height is due. -/
theorem exists_due (h : Recounted c settings sent w resume s past) {first due : Height}
    (hfirst : firstHeight resume past = some first) (hdue : s.next = some due) :
    ∃ handed, first ≤ due ∧ heights (sent s.world) = heights (sent w) ++ handed
      ∧ (handed ++ passedOver c settings past).Perm
          (List.range' first.toNat (due.toNat - first.toNat))
      ∧ s.stats.handedOff.toNat = handed.length
      ∧ s.stats.dropped.toNat
          = ((passedOver c settings past).length + (countedInVain c settings past).length)
            % 2 ^ 64
      ∧ (c.machine.overflow = .panics →
          (passedOver c settings past).length + (countedInVain c settings past).length < 2 ^ 64)
      ∧ (due.toNat - first.toNat = s.stats.handedOff.toNat + s.stats.dropped.toNat
          ↔ 2 ^ 64 ∣ (countedInVain c settings past).length) := by
  obtain ⟨handed, hsent, hcount, hheights⟩ := h.handed
  obtain ⟨hle, hperm⟩ := hheights first
  rw [hfirst, hdue, Option.getD_some, Option.getD_some] at hle hperm
  obtain ⟨hoff, -⟩ := Word.plus?_eq_some_iff.mp hcount
  obtain ⟨hdropped, hfits⟩ := Word.plus?_eq_some_iff.mp h.dropped
  rw [show (0 : Count).toNat = 0 from rfl, Nat.zero_add] at hoff hdropped hfits
  -- there are no more heights than there are words
  have hlength := hperm.length_eq
  rw [List.length_append, List.length_range'] at hlength
  have htop := due.toNat_lt
  rw [Nat.mod_eq_of_lt (by omega)] at hoff
  refine ⟨handed, hle, hsent, hperm, hoff, hdropped, hfits, ?_⟩
  rw [hoff, hdropped]
  omega

end Recounted

/-- **Dropped heights are those passed over and those counted in vain.**  Behind every
header that is handled in a run, each height from the first one up to below the one that
is due has been handed over or passed over, and only once; the statistics tell how many
have been handed over, and as dropped they count besides the heights passed over those
that were counted in vain.  So the two counts add up exactly if nothing has been counted
in vain, or, where counts wrap around, if they have gone all the way round.  A header is
handled unless a count does not fit in a checked build. -/
theorem dropped_counts_vain_reaches {c : Conduit σ} {sent : σ → List Batch}
    (hr : c.Records sent) (hopen : c.Open) {settings : StreamSettings}
    (hb : settings.backfill = true) {rounds : List Round}
    (hhonest : c.source.Honest (rounds.flatMap headersOf))
    (hbelow : ∀ header ∈ rounds.flatMap headersOf, header.number.toNat + 1 < 2 ^ 64)
    (w : σ) (resume : Option Height) :
    ∀ earlier a later,
      arrivalsOf c settings rounds (.new w resume) = earlier ++ a :: later →
      let past := earlier ++ [a]
      let passed := passedOver c settings past
      let vain := countedInVain c settings past
      let result := (onHeader c settings a.header a.found).1
      let s := (onHeader c settings a.header a.found).2
      let log := incidents c settings a.header a.found
      (result = .ok ()
        ∧ ∃ first due handed, firstHeight resume past = some first ∧ s.next = some due
          ∧ first ≤ due
          ∧ heights (sent s.world) = heights (sent w) ++ handed
          ∧ (handed ++ passed).Perm (List.range' first.toNat (due.toNat - first.toNat))
          ∧ s.stats.handedOff.toNat = handed.length
          ∧ s.stats.dropped.toNat = (passed.length + vain.length) % 2 ^ 64
          ∧ (c.machine.overflow = .panics → passed.length + vain.length < 2 ^ 64)
          ∧ (due.toNat - first.toNat = s.stats.handedOff.toNat + s.stats.dropped.toNat
              ↔ 2 ^ 64 ∣ vain.length))
      ∨ (result = .error .panicked ∧ c.machine.overflow = .panics
        ∧ ∃ k, 2 ^ 64
          ≤ (a.found.stats.of k).toNat + (countedAt settings a.due a.header log).count k) := by
  intro earlier a later hsplit past passed vain result s log
  have hone : ∀ header ∈ rounds.flatMap headersOf, c.source.Honest [header] :=
    fun header hmem => hhonest.mono (List.cons_subset.mpr ⟨hmem, List.nil_subset _⟩)
  have hcarried : CarriedAlong c settings (rounds.flatMap headersOf)
      (Recounted c settings sent w resume) :=
    ⟨fun hmem h hok => h.header hr hopen hb (hone _ hmem) (hbelow _ hmem) hok,
      fun h => h.congr rfl rfl rfl rfl, fun h => h.resubscribed⟩
  obtain ⟨hmem, hfound⟩ :=
    hcarried.run (fun round hround header hmem => List.mem_flatMap.mpr ⟨round, hround, hmem⟩)
      (.new c settings sent w resume) hsplit
  have hbrings := onHeader_brings (hone _ hmem) hopen (hbelow _ hmem) settings a.found
  unfold Asking.Ends at hbrings
  rcases hresult : (onHeader c settings a.header a.found).1 with (e | _) | _
  · rw [hresult] at hbrings
    exact hbrings.elim
  · rw [hresult] at hbrings
    obtain ⟨-, k, hfull⟩ := hbrings
    obtain ⟨ho, hfull⟩ := Word.plus?_eq_none_iff.mp hfull
    exact .inr ⟨hresult, ho, k, hfull⟩
  · rw [hresult] at hbrings
    obtain ⟨batches, -, -, -, hdue⟩ := hbrings
    have hfirst := firstHeight_concat resume earlier a
    obtain ⟨handed, haccount⟩ :=
      (hfound.header hr hopen hb (hone _ hmem) (hbelow _ hmem) hresult).exists_due hfirst hdue
    exact .inl ⟨hresult, _, _, handed, hfirst, hdue, haccount⟩

/-! ## §4. A height that is counted twice. -/

theorem records_lateConduit : lateConduit.Records Prod.snd where
  byNumber := by
    rintro number ⟨_ | left, blocks⟩
    · rfl
    · rfl
  byHash _ _ := rfl
  taken _ _ _ := rfl
  refused _ _ h := nomatch h

/-- The third block is announced twice. -/
def twiceThree : List Round := [.headers [⟨.clamp 3, .zero⟩, ⟨.clamp 3, .zero⟩]]

/-- The two arrivals, the first fetch of block 2 having failed in between. -/
def firstThree : Arrival (Nat × List Batch) :=
  ⟨⟨.clamp 3, .zero⟩, (subscribe (.new (1, []) (some (.clamp 0)))).2⟩

def secondThree : Arrival (Nat × List Batch) :=
  ⟨⟨.clamp 3, .zero⟩, (onHeader lateConduit oneBack firstThree.header firstThree.found).2⟩

/-- Heights 0 and 1 are out of reach of block 3.  The first fetch of block 2 fails,
and with the second header they are counted again: four dropped heights and two
blocks handed over make more than the four heights below the one that is due. -/
theorem dropped_counts_vain_reaches_twiceThree :
    let s := (onHeader lateConduit oneBack secondThree.header secondThree.found).2
    let past := [firstThree, secondThree]
    arrivalsOf lateConduit oneBack twiceThree (.new (1, []) (some (.clamp 0))) = past
      ∧ s.next = some (.clamp 4) ∧ heights s.world.2 = [2, 3]
      ∧ passedOver lateConduit oneBack past = [0, 1]
      ∧ countedInVain lateConduit oneBack past = [0, 1]
      ∧ s.stats.handedOff.toNat = 2 ∧ s.stats.dropped.toNat = 4
      ∧ ¬ 4 - 0 = s.stats.handedOff.toNat + s.stats.dropped.toNat := by
  intro s past
  have hbelow : ∀ header ∈ twiceThree.flatMap headersOf, header.number.toNat + 1 < 2 ^ 64 := by
    decide
  have harrivals :
      arrivalsOf lateConduit oneBack twiceThree (.new (1, []) (some (.clamp 0))) = past := by
    have hfirst : onHeader lateConduit oneBack ⟨.clamp 3, .zero⟩ firstThree.found
        = (.ok (), secondThree.found) := Prod.ext (by decide +kernel) rfl
    have hround : arrivals lateConduit oneBack [⟨.clamp 3, .zero⟩, ⟨.clamp 3, .zero⟩]
        firstThree.found = past := by
      unfold arrivals
      rw [hfirst]
      simp only
      unfold arrivals
      split <;> rfl
    unfold arrivalsOf twiceThree arrivalsFrom
    refine (congrArg (· ++ _) hround).trans ?_
    split <;> exact List.append_nil _
  have hok : (onHeader lateConduit oneBack secondThree.header secondThree.found).1 = .ok () := by
    decide +kernel
  have hnext : s.next = some (.clamp 4) := by decide +kernel
  have hheights : heights s.world.2 = [2, 3] := by decide +kernel
  have hpassed : passedOver lateConduit oneBack past = [0, 1] := by decide +kernel
  have hvain : countedInVain lateConduit oneBack past = [0, 1] := by decide +kernel
  rcases dropped_counts_vain_reaches records_lateConduit (fun _ _ => rfl)
      (show oneBack.backfill = true from rfl) (honest_lateConduit (by decide)) hbelow (1, [])
      (some (.clamp 0)) [firstThree] secondThree [] harrivals with
    ⟨-, first, due, handed, hfirst, hdue, -, hsent, -, hhanded, hdropped, -, hsum⟩ | ⟨hpanicked, -⟩
  · obtain rfl : .clamp 0 = first := Option.some.inj hfirst
    obtain rfl : due = .clamp 4 := Option.some.inj (hdue.symm.trans hnext)
    obtain rfl : handed = [2, 3] := hsent.symm.trans hheights
    simp only [List.cons_append, List.nil_append] at hdropped hsum
    refine ⟨harrivals, hnext, hheights, hpassed, hvain, hhanded, ?_, fun hlaw => ?_⟩
    · rw [hdropped, hpassed, hvain]
      rfl
    · have hround := hsum.mp hlaw
      rw [hvain] at hround
      exact absurd hround (by decide)
  · exact nomatch hok.symm.trans hpanicked

end FundTrail
