/-
  FundTrail.Proofs.Stream.Course
  ──────────────────────────────
  **THE COURSE OF A HEADER, STEP BY STEP.**

  A header sets up a list of requests: one for each missing height, as far back as the
  limit allows, and one for the announced block itself, which is asked for by its hash.
  The stream follows this list.  So what is handed over is the longest run of blocks that
  could be fetched, and the height that is due afterwards is the one behind it.

  All along it counts.  Where a count does not fit, a checked build breaks off, and what
  has been done until then is a beginning of what there was to do; any other build goes
  on with the count wrapped around.

  Nothing is known of the surroundings but that somebody takes the blocks and that
  blocks have the numbers they are asked for by; whether a fetch succeeds may change
  from one call to the next.

  Main facts: `backfill_course`, `onHeader_course` and `onHeader_brings`, which says of
  any stream what `onHeader_course` says of one with a log.
-/
import FundTrail.Proofs.Stream.Log

namespace FundTrail

open Streamer

variable {σ : Type}

/-! ## §1. Requests and answers. -/

/-- The requests for `count` heights from `start` on. -/
def byNumbers (start count : Nat) : List Request :=
  (List.range' start count).map fun n => .byNumber (.clamp n)

theorem length_byNumbers (start count : Nat) : (byNumbers start count).length = count := by
  unfold byNumbers
  rw [List.length_map, List.length_range']

theorem byNumbers_succ (number : Height) (count : Nat) :
    byNumbers number.toNat (count + 1)
      = .byNumber number :: byNumbers (number.toNat + 1) count := by
  have hself : Word.clamp number.toNat = number := by
    have := number.toNat_lt
    exact Word.ext (by rw [Word.toNat_clamp]; omega)
  unfold byNumbers
  rw [List.range'_succ, List.map_cons, hself]

/-- The end of what meets with no refusal: an answer with `Q`, or a panic with `B`. -/
def Unrefused {τ α : Type} (Q : α → Streamer τ → Prop) (B : Streamer τ → Prop) :
    Except (Stop StreamError) α → Streamer τ → Prop
  | .ok a, t => Q a t
  | .error .panicked, t => B t
  | .error (.failed _), _ => False

/-- What follows on such an answer. -/
theorem Asking.Ends.unrefused {τ α β : Type} {x : Streaming τ α} {f : α → Streaming τ β}
    {s : Streamer τ} {Q : α → Streamer τ → Prop} {Q' : β → Streamer τ → Prop}
    {B B' : Streamer τ → Prop} (h : x.Ends s (Unrefused Q B))
    (hok : ∀ a t, Q a t → (f a).Ends t (Unrefused Q' B')) (hburst : ∀ t, B t → B' t) :
    (x >>= f).Ends s (Unrefused Q' B') := by
  refine h.bind hok fun e t ht => ?_
  cases e with
  | failed e => exact ht
  | panicked => exact hburst t ht

theorem Asking.Ends.unrefused_imp {τ α : Type} {x : Streaming τ α} {s : Streamer τ}
    {Q Q' : α → Streamer τ → Prop} {B B' : Streamer τ → Prop} (h : x.Ends s (Unrefused Q B))
    (hok : ∀ a t, Q a t → Q' a t) (hburst : ∀ t, B t → B' t) : x.Ends s (Unrefused Q' B') := by
  refine h.imp fun r t ht => ?_
  rcases r with (e | _) | a
  · exact ht
  · exact hburst t ht
  · exact hok a t ht

/-- The requests have been followed, and counted.  They brought blocks from height
`start` on, one after the other. -/
structure Fetched (o : Overflow) (backfill : Bool) (requests : List Request) (start : Nat)
    (batches : List Batch) (s t : Streamer (σ × List Incident)) : Prop where
  heights : heights batches = List.range' start batches.length
  followed : ∃ log, Followed requests batches log ∧ Since o s log (countedIn backfill log) t

/-- A beginning has been made with the requests, and with counting it. -/
def BrokenOff (o : Overflow) (backfill : Bool) (requests : List Request)
    (s t : Streamer (σ × List Incident)) : Prop :=
  ∃ log, Begun requests log ∧ Burst o s log (countedIn backfill log) t

/-- A request has been answered: by the block at the height `number`, or by none. -/
def Answered (o : Overflow) (request : Request) (number : Height)
    (s : Streamer (σ × List Incident)) (result : Except ChainError Batch)
    (t : Streamer (σ × List Incident)) : Prop :=
  t.next = s.next ∧ match result with
    | .ok batch => batch.number = number
        ∧ Since o s [.fetched request (some (.ok batch))] [] t
    | .error _ => ∃ answer, (∀ batch, answer ≠ some (.ok batch))
        ∧ Since o s [.fetched request answer] [] t

section

variable {o : Overflow} {backfill : Bool} {requests more : List Request} {start : Nat}
  {batches others : List Batch} {s t u : Streamer (σ × List Incident)} {request : Request}

theorem answered {number : Height} {answer : Option (Except ChainError Batch)}
    (hgiven : ∀ batch, answer = some (.ok batch) → batch.number = number)
    (hlog : t.world.2 = s.world.2 ++ [.fetched request answer]) (hstats : t.stats = s.stats)
    (hnext : t.next = s.next) (limit : Span) :
    Answered o request number s (inTime limit answer) t := by
  have hsince : Since o s [.fetched request answer] [] t :=
    ⟨hlog, fun k => by rw [hstats]; exact Word.plus?_zero⟩
  rcases answer with _ | e | batch
  · exact ⟨hnext, none, nofun, hsince⟩
  · exact ⟨hnext, some (.error e), nofun, hsince⟩
  · exact ⟨hnext, hgiven batch rfl, hsince⟩

/-- With backfill nothing is counted when a request brings no block. -/
theorem Fetched.failed {answer : Option (Except ChainError Batch)}
    (hnone : ∀ batch, answer ≠ some (.ok batch)) (requests : List Request) (start : Nat)
    (h : Since o s [.fetched request answer] [] t) :
    Fetched o true (request :: requests) start [] s t where
  heights := rfl
  followed := by
    have huncounted : countedIn true [.fetched request answer] = [] := by
      rcases answer with _ | _ | batch
      · cases request <;> rfl
      · cases request <;> rfl
      · exact absurd rfl (hnone batch)
    exact ⟨_, .failed hnone, by rw [huncounted]; exact h⟩

/-- The others brought blocks as well. -/
theorem Fetched.append (h : Fetched o backfill requests start batches s t)
    (hall : batches.length = requests.length)
    (g : Fetched o backfill more (start + batches.length) others t u) :
    Fetched o backfill (requests ++ more) start (batches ++ others) s u where
  heights := by
    rw [heights_append, h.heights, g.heights, List.length_append, List.range'_append_1]
  followed := by
    obtain ⟨log, hlog, hsince⟩ := h.followed
    obtain ⟨after, hafter, hrest⟩ := g.followed
    refine ⟨log ++ after, hlog.append hall hafter, ?_⟩
    rw [countedIn_append]
    exact hsince.trans hrest

/-- The others were not made. -/
theorem Fetched.append_of_ne (h : Fetched o backfill requests start batches s t)
    (hfailed : batches.length ≠ requests.length) (more : List Request) :
    Fetched o backfill (requests ++ more) start batches s t where
  heights := h.heights
  followed := by
    obtain ⟨log, hlog, hsince⟩ := h.followed
    exact ⟨log, hlog.append_of_ne hfailed more, hsince⟩

/-- With the others only a beginning has been made. -/
theorem Fetched.brokenOff (h : Fetched o backfill requests start batches s t)
    (hall : batches.length = requests.length) (g : BrokenOff o backfill more t u) :
    BrokenOff o backfill (requests ++ more) s u := by
  obtain ⟨log, hlog, hsince⟩ := h.followed
  obtain ⟨after, hafter, hburst⟩ := g
  refine ⟨log ++ after, .of_followed hlog hall hafter, ?_⟩
  rw [countedIn_append]
  exact hsince.burst hburst

theorem BrokenOff.append (h : BrokenOff o backfill requests s t) (more : List Request) :
    BrokenOff o backfill (requests ++ more) s t := by
  obtain ⟨log, hbegun, hburst⟩ := h
  exact ⟨log, hbegun.append more, hburst⟩

end

/-! ## §2. The steps of a stream. -/

section

variable {c : Conduit σ} {s : Streamer (σ × List Incident)}

theorem count_course (c : Conduit σ) (k : Counter) (n : Nat)
    (s : Streamer (σ × List Incident)) :
    (count c.recorded k n).Ends s (Unrefused
      (fun _ t => Since c.machine.overflow s [] (List.replicate n k) t
        ∧ t.next = s.next)
      fun t => Burst c.machine.overflow s [] (List.replicate n k) t) := by
  have hself : (List.replicate n k).count k = n := List.count_replicate_self
  have hother : ∀ j, j ≠ k → (List.replicate n k).count j = 0 := fun j hj =>
    List.count_eq_zero_of_not_mem fun hmem => hj (List.eq_of_mem_replicate hmem)
  unfold Asking.Ends count
  split
  next total htotal =>
    refine ⟨⟨(List.append_nil _).symm, fun j => ?_⟩, rfl⟩
    by_cases hj : j = k
    · subst hj
      rw [hself, StreamStats.of_set_self]
      exact htotal
    · rw [hother j hj, StreamStats.of_set_of_ne _ hj]
      exact Word.plus?_zero
  next hfull =>
    refine ⟨(List.append_nil _).symm, k, ?_⟩
    rw [hself]
    exact hfull

/-- A block joins the log, and is counted. -/
theorem handOff_course (hopen : c.Open) {batch : Batch} (hlt : batch.number.toNat + 1 < 2 ^ 64) :
    (handOff c.recorded batch).Ends s (Unrefused
      (fun _ t => Since c.machine.overflow s [.handedOver batch] [.handedOff] t
        ∧ t.next = some batch.number.next)
      fun t => Burst c.machine.overflow s [.handedOver batch] [.handedOff] t) := by
  have htaken : (c.recorded.deliver batch s.world).1 = true := hopen batch s.world.1
  unfold Asking.Ends
  rw [handOff_of_taken hlt htaken]
  -- the log tells of the delivery before it is counted
  have hlog : (c.recorded.deliver batch s.world).2.2 = s.world.2 ++ [.handedOver batch] := by
    show (if (c.deliver batch s.world.1).1 then _ else _) = _
    rw [if_pos (hopen batch s.world.1)]
  have hdelivered : Since c.machine.overflow s [.handedOver batch] []
      { s with world := (c.recorded.deliver batch s.world).2, next := some batch.number.next } :=
    ⟨hlog, fun _ => Word.plus?_zero⟩
  exact (count_course c .handedOff 1 _).unrefused_imp
    (fun _ _ ⟨hcounted, hnext⟩ => ⟨hdelivered.trans hcounted, hnext⟩)
    fun _ hburst => hdelivered.burst hburst

variable {header : Header} (hhonest : c.source.Honest [header])

include hhonest

theorem fetchByNumber_course (limit : Span) (number : Height) :
    (fetchByNumber c.recorded limit number).Ends s (Unrefused
      (Answered c.machine.overflow (.byNumber number) number s) fun _ => False) := by
  show Answered _ _ _ s (inTime limit _) _
  exact answered (hhonest.byNumber number s.world.1) (by rfl) (by rfl) (by rfl) limit

theorem fetchByHash_course (limit : Span) :
    (fetchByHash c.recorded limit header.hash).Ends s (Unrefused
      (Answered c.machine.overflow (.byHash header.hash) header.number s) fun _ => False) := by
  show Answered _ _ _ s (inTime limit _) _
  exact answered (hhonest.byHash header List.mem_cons_self s.world.1) (by rfl) (by rfl) (by rfl)
    limit

variable (hopen : c.Open)

include hopen

/-- **On the way back** the blocks come one after the other, up to the first that cannot
be fetched. -/
theorem backfill_course (limit : Span) (more : Nat) (number : Height)
    (hlt : number.toNat + more < 2 ^ 64) :
    (backfill c.recorded limit more number).Ends s (Unrefused
      (fun full t => ∃ batches,
        Fetched c.machine.overflow true (byNumbers number.toNat more) number.toNat batches s t
          ∧ full = decide (batches.length = more)
          ∧ t.next = if batches = [] then s.next
            else some (.clamp (number.toNat + batches.length)))
      (BrokenOff c.machine.overflow true (byNumbers number.toNat more) s)) := by
  induction more generalizing number s with
  | zero => exact ⟨[], ⟨rfl, [], .all, .refl _ s⟩, rfl, rfl⟩
  | succ more ih =>
    rw [byNumbers_succ]
    refine (fetchByNumber_course hhonest limit number).unrefused ?_ nofun
    rintro (e | batch) t ⟨hkeep, hanswered⟩
    · -- here the way ends
      obtain ⟨answer, hnone, hsince⟩ := hanswered
      exact ⟨[], .failed hnone _ _ hsince, rfl, hkeep⟩
    · obtain ⟨rfl, hsince⟩ := hanswered
      refine (count_course c .backfilled 1 t).unrefused ?_ fun u hburst =>
        ⟨_, .fetched _ _ _, hsince.burst hburst⟩
      rintro ⟨⟩ u ⟨hcounted, -⟩
      have hfound := hsince.trans hcounted
      refine (handOff_course hopen (by omega)).unrefused ?_ fun v hburst =>
        ⟨_, .given (.nil _), hfound.burst hburst⟩
      rintro ⟨⟩ v ⟨hgiven, hmoved⟩
      have hone := hfound.trans hgiven
      -- one block further on the way is one block shorter
      have hbehind := Word.toNat_next_of_lt (a := batch.number) (by omega)
      have hrest := ih (s := v) batch.number.next (by omega)
      rw [hbehind] at hrest
      refine hrest.unrefused_imp ?_ ?_
      · rintro full w ⟨batches, ⟨hheights, log, hlog, hafter⟩, hfull, hnext⟩
        refine ⟨batch :: batches, ⟨?_, _, .given hlog, hone.trans hafter⟩, ?_, ?_⟩
        · exact congrArg (_ :: ·) hheights
        · rw [hfull, List.length_cons]
          congr 1
          exact propext ⟨fun h => by omega, fun h => by omega⟩
        · rw [hnext, if_neg (List.cons_ne_nil _ _)]
          split
          next hnil =>
            rw [hmoved, hnil]
            exact congrArg some (Word.ext (by rw [hbehind, Word.toNat_clamp]; simp; omega))
          next => rw [List.length_cons, Nat.add_right_comm, Nat.add_assoc]
      · rintro w ⟨log, hbegun, hburst⟩
        exact ⟨_, .given hbegun, hone.burst hburst⟩

variable (hbelow : header.number.toNat + 1 < 2 ^ 64)

include hbelow

/-- **The announced block** is asked for once, by its hash.  Without backfill the height
behind it is due in any case, and it is dropped if it has not come. -/
theorem announced_course (settings : StreamSettings) :
    (announced c.recorded settings header).Ends s (Unrefused
      (fun _ t => ∃ batches,
        Fetched c.machine.overflow settings.backfill [.byHash header.hash] header.number.toNat
            batches s t
          ∧ t.next = if batches = [] ∧ settings.backfill = true then s.next
            else some header.number.next)
      (BrokenOff c.machine.overflow settings.backfill [.byHash header.hash] s)) := by
  refine (fetchByHash_course hhonest settings.fetchTimeout).unrefused ?_ nofun
  rintro (e | batch) t ⟨hkeep, hanswered⟩
  · obtain ⟨answer, hnone, hsince⟩ := hanswered
    show Asking.Ends (if settings.backfill then _ else _) t _
    cases settings.backfill with
    | true => exact ⟨[], .failed hnone [] _ hsince, hkeep⟩
    | false =>
      have hcounts : countedIn false [.fetched (.byHash header.hash) answer] = [.dropped] := by
        rcases answer with _ | _ | batch
        · rfl
        · rfl
        · exact absurd rfl (hnone batch)
      rw [if_neg nofun, moveBehind_of_lt hbelow]
      refine (count_course c .dropped 1 t).unrefused ?_ fun u hburst =>
        ⟨_, .fetched _ _ _, by rw [hcounts]; exact hsince.burst hburst⟩
      rintro ⟨⟩ u ⟨hcounted, -⟩
      refine ⟨[], ⟨rfl, _, .failed hnone, ?_⟩, rfl⟩
      rw [hcounts]
      exact (hsince.trans hcounted).congr rfl rfl
  · obtain ⟨hnumber, hsince⟩ := hanswered
    refine (handOff_course hopen (hnumber ▸ hbelow)).unrefused_imp ?_ fun u hburst =>
      ⟨_, .given (.nil []), hsince.burst hburst⟩
    rintro ⟨⟩ u ⟨hgiven, hmoved⟩
    refine ⟨[batch], ⟨?_, _, .given .all, hsince.trans hgiven⟩, ?_⟩
    · exact congrArg (fun n : Height => [n.toNat]) hnumber
    · rw [hmoved, hnumber, if_neg fun h => nomatch h.1]

/-- With backfill a stream follows the requests for all that is missing, and then the one
for the announced block. -/
theorem caughtUp_course {settings : StreamSettings} (hb : settings.backfill = true)
    {next : Height} (hle : next ≤ header.number) :
    let start := (backfillStart settings.maxBackfill next header.number).toNat
    let requests := byNumbers start (header.number.toNat - start) ++ [.byHash header.hash]
    let passed := List.replicate (start - next.toNat) Counter.dropped
    (caughtUp c.recorded settings next header).Ends s (Unrefused
      (fun _ t => ∃ batches u, Since c.machine.overflow s [] passed u
        ∧ Fetched c.machine.overflow true requests start batches u t
        ∧ t.next = if batches = [] then s.next else some (.clamp (start + batches.length)))
      fun t => Burst c.machine.overflow s [] passed t
        ∨ ∃ u, Since c.machine.overflow s [] passed u
          ∧ BrokenOff c.machine.overflow true requests u t) := by
  intro start requests passed
  have hstart : start ≤ header.number.toNat := backfillStart_le settings.maxBackfill hle
  have hlength := length_byNumbers start (header.number.toNat - start)
  refine (count_course c .dropped _ s).unrefused ?_ fun t hburst => .inl hburst
  rintro ⟨⟩ u ⟨hpassed, hkeep⟩
  refine (backfill_course hhonest hopen settings.fetchTimeout (header.number.toNat - start)
    (backfillStart settings.maxBackfill next header.number) (by omega)).unrefused ?_
    fun t hbroken => .inr ⟨u, hpassed, hbroken.append _⟩
  rintro _ t ⟨batches, hfetched, rfl, hnext⟩
  by_cases hall : batches.length = header.number.toNat - start
  · -- all that was missing has come: now for the announced block
    rw [decide_eq_true hall]
    have hwhole := hall.trans hlength.symm
    have hseam : header.number.toNat = start + batches.length := by omega
    have hlast := announced_course (s := t) hhonest hopen hbelow settings
    rw [hb, hseam] at hlast
    refine hlast.unrefused_imp ?_ fun v hbroken =>
      .inr ⟨u, hpassed, hfetched.brokenOff hwhole hbroken⟩
    rintro ⟨⟩ v ⟨others, hothers, hnext'⟩
    refine ⟨batches ++ others, u, hpassed, hfetched.append hwhole hothers, ?_⟩
    obtain ⟨_, hfollowed, -⟩ := hothers.followed
    have hone : others.length ≤ 1 := hfollowed.length_le
    rw [hnext', hnext, hkeep]
    rcases others with _ | ⟨last, _ | _⟩
    · rw [if_pos ⟨rfl, rfl⟩, List.append_nil]
    · have hbehind := Word.toNat_next_of_lt hbelow
      rw [if_neg (fun h => nomatch h.1),
        if_neg (List.append_ne_nil_of_right_ne_nil batches (List.cons_ne_nil last []))]
      refine congrArg some (Word.ext ?_)
      rw [hbehind, Word.toNat_clamp, List.length_append, List.length_singleton]
      omega
    · exact absurd hone (by simp)
  · rw [decide_eq_false hall]
    exact ⟨batches, u, hpassed, hfetched.append_of_ne (fun h => hall (h.trans hlength)) _,
      hkeep ▸ hnext⟩

end

/-! ## §3. One header. -/

section

variable (settings : StreamSettings) (next : Height) (header : Header)

/-- What a header makes a stream ask for, when `next` is due: nothing if it comes from
below, and without backfill the announced block only. -/
def requestsAt : List Request :=
  let start := (backfillStart settings.maxBackfill next header.number).toNat
  if header.number < next then []
  else if settings.backfill then
    byNumbers start (header.number.toNat - start) ++ [.byHash header.hash]
  else [.byHash header.hash]

/-- The number of heights that are due but out of reach of a header.  Without backfill
none is missed. -/
def outOfReach : Nat :=
  if settings.backfill then
    (backfillStart settings.maxBackfill next header.number).toNat - next.toNat
  else 0

/-- What is counted at a header: the header, what is out of its reach, and then whatever
happens. -/
def countedAt (log : List Incident) : List Counter :=
  .headers :: (List.replicate (outOfReach settings next header) .dropped
    ++ countedIn settings.backfill log)

/-- The height that is due behind a header, when it has brought these blocks. -/
def dueBehind (batches : List Batch) : Height :=
  let start := (backfillStart settings.maxBackfill next header.number).toNat
  if header.number < next then next
  else if settings.backfill then
    if batches = [] then next else .clamp (start + batches.length)
  else header.number.next

/-- The height of the first block that a header can bring. -/
def firstAt : Nat :=
  if settings.backfill then (backfillStart settings.maxBackfill next header.number).toNat
  else header.number.toNat

variable {settings next header}

theorem requestsAt_of_lt (h : header.number < next) : requestsAt settings next header = [] :=
  if_pos h

theorem requestsAt_of_not_backfill (h : next ≤ header.number) (hb : settings.backfill = false) :
    requestsAt settings next header = [.byHash header.hash] := by
  have hhigh : ¬ header.number < next := Nat.not_lt.mpr h
  unfold requestsAt
  rw [if_neg hhigh, hb]
  rfl

/-- With backfill no height is left behind unless a block has come. -/
theorem dueBehind_nil (hb : settings.backfill = true) :
    dueBehind settings next header [] = next := by
  unfold dueBehind
  simp only [if_pos hb, if_pos, ite_self]

/-- At a header as many blocks are counted as handed over as the log tells of. -/
theorem count_handedOff_countedAt (log : List Incident) :
    (countedAt settings next header log).count .handedOff = (batchesIn log).length := by
  have hpassed : (List.replicate (outOfReach settings next header) Counter.dropped).count
      .handedOff = 0 :=
    List.count_eq_zero_of_not_mem fun hmem => nomatch List.eq_of_mem_replicate hmem
  unfold countedAt
  rw [List.count_cons_of_ne (show Counter.headers ≠ .handedOff from nofun), List.count_append,
    hpassed, count_handedOff_countedIn, Nat.zero_add]

/-- With backfill only the heights out of its reach are counted as dropped. -/
theorem count_dropped_countedAt (hb : settings.backfill = true) (log : List Incident) :
    (countedAt settings next header log).count .dropped = outOfReach settings next header := by
  unfold countedAt
  rw [List.count_cons_of_ne (show Counter.headers ≠ .dropped from nofun), List.count_append,
    List.count_replicate_self, hb, count_dropped_countedIn]
  rfl

theorem requestsAt_of_backfill (h : next ≤ header.number) (hb : settings.backfill = true) :
    requestsAt settings next header
      = byNumbers (firstAt settings next header)
          (header.number.toNat - firstAt settings next header) ++ [.byHash header.hash] := by
  have hhigh : ¬ header.number < next := Nat.not_lt.mpr h
  unfold requestsAt firstAt
  rw [if_neg hhigh, if_pos hb, if_pos hb]

theorem dueBehind_of_backfill (h : next ≤ header.number) (hb : settings.backfill = true)
    (batches : List Batch) : dueBehind settings next header batches
      = if batches = [] then next
        else .clamp (firstAt settings next header + batches.length) := by
  have hhigh : ¬ header.number < next := Nat.not_lt.mpr h
  unfold dueBehind firstAt
  rw [if_neg hhigh, if_pos hb, if_pos hb]

/-- The way back begins at the height that is due if the header is from below. -/
theorem backfillStart_of_lt (maxBackfill : Height) {next number : Height}
    (h : number < next) : backfillStart maxBackfill next number = next := by
  have hlt : number.toNat < next.toNat := h
  unfold backfillStart
  rw [if_pos (by omega)]

/-- What is out of reach of a header and what it asks for are heights up to its own. -/
theorem outOfReach_add_length_requestsAt_le (settings : StreamSettings) (next : Height)
    (header : Header) : outOfReach settings next header + (requestsAt settings next header).length
      ≤ header.number.toNat + 1 := by
  by_cases hlow : header.number < next
  · rw [requestsAt_of_lt hlow, outOfReach, backfillStart_of_lt _ hlow, Nat.sub_self, ite_self]
    exact Nat.zero_le _
  have hle : next ≤ header.number := Nat.le_of_not_lt hlow
  cases hb : settings.backfill with
  | false =>
    rw [requestsAt_of_not_backfill hle hb, outOfReach, hb, if_neg nofun]
    exact Nat.add_le_add_right (Nat.zero_le _) 1
  | true =>
    have hreach : (backfillStart settings.maxBackfill next header.number).toNat
        ≤ header.number.toNat := backfillStart_le settings.maxBackfill hle
    have hfirst : firstAt settings next header
        = (backfillStart settings.maxBackfill next header.number).toNat := if_pos hb
    rw [requestsAt_of_backfill hle hb, hfirst, outOfReach, if_pos hb, List.length_append,
      length_byNumbers, List.length_singleton]
    omega

/-- No count goes up by much more than the height of a header. -/
theorem count_countedAt_le {settings : StreamSettings} {next : Height} {header : Header}
    {log : List Incident} (h : Begun (requestsAt settings next header) log) (k : Counter) :
    (countedAt settings next header log).count k ≤ header.number.toNat + 2 := by
  have hheights := outOfReach_add_length_requestsAt_le settings next header
  have hlog := h.count_countedIn_le settings.backfill k
  have hpassed : (List.replicate (outOfReach settings next header) Counter.dropped).count k
      ≤ outOfReach settings next header :=
    Nat.le_trans List.count_le_length (Nat.le_of_eq List.length_replicate)
  have hheader : [Counter.headers].count k ≤ 1 := List.count_le_length
  show ([Counter.headers] ++ (List.replicate _ _ ++ countedIn _ log)).count k ≤ _
  rw [List.count_append, List.count_append]
  omega

end

section

variable {c : Conduit σ} {header : Header} (hhonest : c.source.Honest [header])
  (hopen : c.Open) (hbelow : header.number.toNat + 1 < 2 ^ 64)

include hhonest hopen hbelow

/-- **All that a header can do**: the stream follows the requests that the header sets up
and goes on behind the blocks that they bring; or it breaks off on the way, where a count
does not fit. -/
theorem onHeader_course (settings : StreamSettings) (s : Streamer (σ × List Incident)) :
    let next := s.next.getD header.number
    (onHeader c.recorded settings header).Ends s (Unrefused
      (fun _ t => ∃ batches log, Followed (requestsAt settings next header) batches log
        ∧ heights batches = List.range' (firstAt settings next header) batches.length
        ∧ Since c.machine.overflow s log (countedAt settings next header log) t
        ∧ t.next = some (dueBehind settings next header batches))
      fun t => ∃ log, Begun (requestsAt settings next header) log
        ∧ Burst c.machine.overflow s log (countedAt settings next header log) t) := by
  intro next
  refine (count_course c .headers 1 s).unrefused ?_ ?_
  · rintro ⟨⟩ t ⟨hheader, hkeep⟩
    refine .bind_of_ok rfl ?_
    rw [hkeep]
    show Asking.Ends (if header.number < next then _ else _) _ _
    -- the stream from here on, with its due height settled
    generalize hu : ({ t with next := some next } : Streamer (σ × List Incident)) = u
    have hnoticed : Since c.machine.overflow s [] [.headers] u :=
      hheader.congr (by rw [← hu]) (by rw [← hu])
    have hnext : u.next = some next := by rw [← hu]
    unfold requestsAt countedAt outOfReach dueBehind firstAt
    by_cases hlow : header.number < next
    · -- a header from below is passed over
      simp only [if_pos hlow, backfillStart_of_lt _ hlow, Nat.sub_self, ite_self]
      exact ⟨[], [], .all, rfl, hnoticed, hnext⟩
    have hle : next ≤ header.number := Nat.le_of_not_lt hlow
    simp only [if_neg hlow]
    cases hb : settings.backfill with
    | false =>
      rw [if_neg nofun, if_neg nofun, if_neg nofun]
      have hlast := announced_course (s := u) hhonest hopen hbelow settings
      rw [hb] at hlast
      refine hlast.unrefused_imp ?_ ?_
      · rintro ⟨⟩ v ⟨batches, ⟨hheights, log, hfollowed, hsince⟩, hdue⟩
        exact ⟨batches, log, hfollowed, hheights, hnoticed.trans hsince,
          hdue.trans (if_neg fun h => nomatch h.2)⟩
      · rintro v ⟨log, hbegun, hburst⟩
        exact ⟨log, hbegun, hnoticed.burst hburst⟩
    | true =>
      rw [if_pos rfl, if_pos rfl, if_pos rfl]
      refine (caughtUp_course (s := u) hhonest hopen hbelow hb hle).unrefused_imp ?_ ?_
      · rintro ⟨⟩ v ⟨batches, w, hpassed, ⟨hheights, log, hfollowed, hsince⟩, hdue⟩
        refine ⟨batches, log, hfollowed, hheights, hnoticed.trans (hpassed.trans hsince), ?_⟩
        rw [hdue, hnext]
        split <;> rfl
      · rintro v (hburst | ⟨w, hpassed, log, hbegun, hburst⟩)
        · refine ⟨[], .nil _, ?_⟩
          show Burst _ s [] (.headers :: (List.replicate _ _ ++ [])) v
          rw [List.append_nil]
          exact hnoticed.burst hburst
        · exact ⟨log, hbegun, hnoticed.burst (hpassed.burst hburst)⟩
  · rintro t ⟨hlog, k, hfull⟩
    -- the header itself is one too many
    refine ⟨[], .nil _, hlog, k, Word.plus?_eq_none_of_le hfull ?_⟩
    show List.count k [.headers] ≤ List.count k ([.headers] ++ _)
    rw [List.count_append]
    exact Nat.le_add_right _ _

end

/-- What happens at a header, from the first request to the last delivery. -/
def Streamer.incidents (c : Conduit σ) (settings : StreamSettings) (header : Header)
    (s : Streamer σ) : List Incident :=
  (onHeader c.recorded settings header { s with world := (s.world, []) }).2.world.2

/-- The same of a stream without a log: what happens is what would have been logged. -/
theorem onHeader_brings {c : Conduit σ} {header : Header} (hhonest : c.source.Honest [header])
    (hopen : c.Open) (hbelow : header.number.toNat + 1 < 2 ^ 64) (settings : StreamSettings)
    (s : Streamer σ) :
    let next := s.next.getD header.number
    let log := incidents c settings header s
    let counts := fun k => (countedAt settings next header log).count k
    (onHeader c settings header).Ends s (Unrefused
      (fun _ t => ∃ batches, Followed (requestsAt settings next header) batches log
        ∧ heights batches = List.range' (firstAt settings next header) batches.length
        ∧ (∀ k, (s.stats.of k).plus? c.machine.overflow (counts k) = some (t.stats.of k))
        ∧ t.next = some (dueBehind settings next header batches))
      fun _ => Begun (requestsAt settings next header) log
        ∧ ∃ k, (s.stats.of k).plus? c.machine.overflow (counts k) = none) := by
  intro next log counts
  -- the stream beside it that keeps the log
  let s' : Streamer (σ × List Incident) := { s with world := (s.world, []) }
  obtain ⟨hresult, hbeside⟩ :=
    c.recorded_alike.lockstep.onHeader settings header s s' ⟨rfl, rfl, rfl, rfl⟩
  have hcourse := onHeader_course hhonest hopen hbelow settings s'
  unfold Asking.Ends at hcourse ⊢
  rw [hresult]
  rcases hended : (onHeader c.recorded settings header s').1 with (e | _) | _
  · rw [hended] at hcourse
    exact hcourse
  · rw [hended] at hcourse
    obtain ⟨log', hbegun, hlog, hfull⟩ := hcourse
    obtain rfl : log = log' := hlog
    exact ⟨hbegun, hfull⟩
  · rw [hended] at hcourse
    obtain ⟨batches, log', hfollowed, hheights, ⟨hlog, hcounts⟩, hdue⟩ := hcourse
    obtain rfl : log = log' := hlog
    refine ⟨batches, hfollowed, hheights, fun k => ?_, hbeside.next.trans hdue⟩
    rw [hbeside.stats]
    exact hcounts k

end FundTrail
