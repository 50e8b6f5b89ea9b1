/-
  FundTrail.Proofs.Session.Belt
  ─────────────────────────────
  **WHAT IS ON THE BELT, AND WHAT THE BOOKS SAY.**

  Whatever the schedule, the blocks that the streamer has handed over are those
  that have been booked followed by those on the belt, and the cursor names the
  last that has been booked.

  With a schedule that takes a block off as soon as it is put on, a session on
  the belt is a session in which every block is booked on the spot.

  Main facts: `records_sent`, `keeps_stand` and `Plan.run_prompt`.
-/
import FundTrail.Proofs.Engine.Commit
import FundTrail.Proofs.Stream.Handover
import FundTrail.Conveyor

namespace FundTrail

open FundTrail.Store

variable {σ : Type}

/-! ## §1. One block. -/

/-- What taking in a block comes to. -/
theorem ingestBatch_cases (m : Market σ) (now : Int64) (batch : Batch)
    (totals : IngestionTotals) (e : Engine σ) :
    (∃ halted e', ingestBatch m now batch totals e = (.error halted, e') ∧ e'.store = e.store) ∨
      ∃ totals' e', ingestBatch m now batch totals e = (.ok totals', e')
        ∧ e'.store.handle.books.cursor? = .ok (some ⟨batch.number, batch.hash, now⟩) := by
  unfold ingestBatch
  rcases e.process_cases m now batch with ⟨error, he, hs⟩ | ⟨outcomes, rs, desk, booked, hc⟩
  -- the engine has refused the block: its store is the old one
  · left
    rcases hp : e.process m now batch with ⟨processed, e'⟩
    rw [hp] at he hs
    simp only at he
    simp only [he]
    exact ⟨_, e', rfl, hs⟩
  · right
    rw [hc.after]
    exact ⟨_, _, rfl, Books.cursor?_put booked _⟩

namespace Conveyor

/-- The books that the booking has come to. -/
def books (w : Conveyor σ) : Books := w.intake.engine.store.handle.books

/-- The blocks that have been put on the belt, in order. -/
def sent (w : Conveyor σ) : List Batch := w.booked ++ w.waiting

/-- What the booking can do in one step: nothing, or stop at a block, or book one. -/
theorem takeIn_cases (m : Market σ) (now : Int64) (w : Conveyor σ) :
    takeIn m now w = w ∨
    (∃ halted e', e'.store = w.intake.engine.store
      ∧ takeIn m now w = { w with intake := ⟨e', .error halted⟩ }) ∨
    ∃ batch waiting totals e', w.waiting = batch :: waiting
      ∧ e'.store.handle.books.cursor? = .ok (some ⟨batch.number, batch.hash, now⟩)
      ∧ takeIn m now w
        = { w with intake := ⟨e', .ok totals⟩, booked := w.booked ++ [batch], waiting } := by
  unfold takeIn
  split
  -- there is a block on the belt, and ingestion has not been stopped
  next totals batch waiting _ hw =>
    rcases ingestBatch_cases m now batch totals w.intake.engine with
      ⟨halted, e', he, hs⟩ | ⟨totals', e', he, hcursor⟩
    · exact .inr (.inl ⟨halted, e', hs, by rw [he]⟩)
    · exact .inr (.inr ⟨batch, waiting, totals', e', hw, hcursor, by rw [he]⟩)
  next => exact .inl rfl

/-- What putting a block on the belt comes to. -/
theorem push_cases (batch : Batch) (w : Conveyor σ) :
    (∃ halted, w.intake.progress = .error halted ∧ push batch w = (false, w)) ∨
      ∃ totals, w.intake.progress = .ok totals
        ∧ push batch w = (true, { w with waiting := w.waiting ++ [batch] }) := by
  unfold push
  cases w.intake.progress with
  | error halted => exact .inl ⟨halted, rfl, rfl⟩
  | ok totals => exact .inr ⟨totals, rfl, rfl⟩

/-! ## §2. Nothing that was handed over gets out of order. -/

theorem sent_takeIn (m : Market σ) (now : Int64) (w : Conveyor σ) :
    (takeIn m now w).sent = w.sent := by
  rcases takeIn_cases m now w with h | ⟨_, _, -, h⟩ | ⟨batch, waiting, _, _, hw, -, h⟩
  · rw [h]
  · rw [h]
    rfl
  · rw [h]
    -- the block changes sides, and stays in its place
    show (w.booked ++ [batch]) ++ waiting = w.booked ++ w.waiting
    rw [hw, List.append_assoc]
    rfl

theorem sent_takeInMany (m : Market σ) (now : Int64) (count : Nat) (w : Conveyor σ) :
    (takeInMany m now count w).sent = w.sent := by
  induction count generalizing w with
  | zero => rfl
  | succ count ih => exact (ih _).trans (sent_takeIn m now w)

theorem sent_advance (m : Market σ) (schedule : Schedule) (w : Conveyor σ) :
    (advance m schedule w).sent = w.sent :=
  sent_takeInMany m _ _ _

/-- **The belt remembers what has been put on it.** -/
theorem records_sent (machine : Machine) (m : Market σ) (source : BlockSource σ)
    (schedule : Schedule) : (conduit machine m source schedule).Records sent := by
  constructor
  · exact fun number w => sent_advance m schedule _
  · exact fun hash w => sent_advance m schedule _
  -- taken: it is the last on the belt
  · intro batch w ht
    refine (sent_advance m schedule (push batch w).2).trans ?_
    change (push batch w).1 = true at ht
    rcases push_cases batch w with ⟨_, -, hp⟩ | ⟨_, -, hp⟩
    · rw [hp] at ht
      exact nomatch ht
    · rw [hp]
      exact (List.append_assoc w.booked w.waiting [batch]).symm
  -- refused: the belt is as it was
  · intro batch w ht
    refine (sent_advance m schedule (push batch w).2).trans ?_
    change (push batch w).1 = false at ht
    rcases push_cases batch w with ⟨_, -, hp⟩ | ⟨_, -, hp⟩
    · rw [hp]
    · rw [hp] at ht
      exact nomatch ht

/-! ## §3. The cursor names the last block that has been booked. -/

end Conveyor

/-- Books that were `before` name in their cursor the last of the blocks that
have been booked since; without any they are as before. -/
def Stand (before : Books) (booked : List Batch) (after : Books) : Prop :=
  match booked.getLast? with
  | none => after = before
  | some batch => ∃ now, after.cursor? = .ok (some ⟨batch.number, batch.hash, now⟩)

namespace Conveyor

theorem stand_takeIn {before : Books} {w : Conveyor σ} (h : Stand before w.booked w.books)
    (m : Market σ) (now : Int64) :
    Stand before (takeIn m now w).booked (takeIn m now w).books := by
  rcases takeIn_cases m now w with hw | ⟨_, e', hs, hw⟩ | ⟨batch, waiting, _, e', -, hcursor, hw⟩
  · rw [hw]
    exact h
  · rw [hw]
    -- stopped: neither the books nor the list of blocks moves
    show Stand before w.booked e'.store.handle.books
    rw [hs]
    exact h
  · rw [hw]
    -- booked: the cursor has just been put
    show Stand before (w.booked ++ [batch]) e'.store.handle.books
    unfold Stand
    rw [List.getLast?_concat]
    exact ⟨now, hcursor⟩

theorem stand_takeInMany {before : Books} (m : Market σ) (now : Int64) (count : Nat)
    {w : Conveyor σ} (h : Stand before w.booked w.books) :
    Stand before (takeInMany m now count w).booked (takeInMany m now count w).books := by
  induction count generalizing w with
  | zero => exact h
  | succ count ih => exact ih (stand_takeIn h m now)

theorem stand_advance {before : Books} (m : Market σ) (schedule : Schedule) {w : Conveyor σ}
    (h : Stand before w.booked w.books) :
    Stand before (advance m schedule w).booked (advance m schedule w).books :=
  stand_takeInMany m _ _ h

/-- **No move of the streamer gets the cursor out of step.** -/
theorem keeps_stand (machine : Machine) (m : Market σ) (source : BlockSource σ)
    (schedule : Schedule) (before : Books) :
    (conduit machine m source schedule).Keeps fun w => Stand before w.booked w.books := by
  constructor
  · exact fun number w h => stand_advance m schedule h
  · exact fun hash w h => stand_advance m schedule h
  · intro batch w h
    refine stand_advance m schedule (w := (push batch w).2) ?_
    rcases push_cases batch w with ⟨_, -, hp⟩ | ⟨_, -, hp⟩ <;> rw [hp] <;> exact h

/-! ## §4. A belt that is never used. -/

end Conveyor

/-- A block is taken off as soon as it has been put on. -/
def Schedule.prompt (now : Int64) : Schedule := ⟨fun _ => 1, fun _ => now⟩

namespace Conveyor

/-- There is nothing for the booking to do. -/
def Idle (w : Conveyor σ) : Prop :=
  w.waiting = [] ∨ ∃ halted, w.intake.progress = .error halted

theorem takeIn_of_idle {w : Conveyor σ} (h : w.Idle) (m : Market σ) (now : Int64) :
    takeIn m now w = w := by
  unfold takeIn
  split
  next hp hw =>
    rcases h with h | ⟨halted, h⟩
    · rw [h] at hw
      exact nomatch hw
    · rw [h] at hp
      exact nomatch hp
  next => rfl

theorem advance_of_idle {w : Conveyor σ} (h : w.Idle) (m : Market σ) (now : Int64) :
    advance m (.prompt now) w = { w with moves := w.moves + 1 } :=
  takeIn_of_idle (w := { w with moves := w.moves + 1 }) h m now

/-- **With a prompt schedule every block is booked on the spot.** -/
theorem alike_prompt (machine : Machine) (m : Market σ) (source : BlockSource σ)
    (now : Int64) :
    (Session.conduit machine m source now).Alike (fun v w => v = w.intake ∧ w.Idle)
      (conduit machine m source (.prompt now)) := by
  refine ⟨rfl, ?_, ?_, ?_⟩
  · rintro number v w ⟨rfl, hidle⟩
    have hasked : (asking (source.byNumber number) w).2.Idle := hidle
    refine ⟨rfl, ?_⟩
    show (Session.asking (source.byNumber number) w.intake).2
        = (advance m (.prompt now) (asking (source.byNumber number) w).2).intake
      ∧ (advance m (.prompt now) (asking (source.byNumber number) w).2).Idle
    rw [advance_of_idle hasked]
    exact ⟨rfl, hasked⟩
  · rintro hash v w ⟨rfl, hidle⟩
    have hasked : (asking (source.byHash hash) w).2.Idle := hidle
    refine ⟨rfl, ?_⟩
    show (Session.asking (source.byHash hash) w.intake).2
        = (advance m (.prompt now) (asking (source.byHash hash) w).2).intake
      ∧ (advance m (.prompt now) (asking (source.byHash hash) w).2).Idle
    rw [advance_of_idle hasked]
    exact ⟨rfl, hasked⟩
  · rintro batch v w ⟨rfl, hidle⟩
    show (Session.deliver m now batch w.intake).1 = (push batch w).1
      ∧ (Session.deliver m now batch w.intake).2
          = (advance m (.prompt now) (push batch w).2).intake
      ∧ (advance m (.prompt now) (push batch w).2).Idle
    unfold Session.deliver
    rcases push_cases batch w with ⟨halted, hprogress, hp⟩ | ⟨totals, hprogress, hp⟩
    -- ingestion has been stopped before, on either side
    · have hstopped : w.Idle := .inr ⟨halted, hprogress⟩
      rw [hp, advance_of_idle hstopped, hprogress]
      exact ⟨rfl, rfl, hstopped⟩
    -- the belt is empty, so the new block is the next
    · have hw : w.waiting = [] := by
        rcases hidle with hw | ⟨halted, h⟩
        · exact hw
        · rw [hprogress] at h
          exact nomatch h
      rw [hp, hprogress, hw]
      show _ ∧ _ = (takeIn m now _).intake ∧ (takeIn m now _).Idle
      unfold takeIn
      simp only [hprogress, List.nil_append]
      rcases ingestBatch m now batch totals w.intake.engine with ⟨halted | totals', e'⟩
      · exact ⟨trivial, rfl, .inr ⟨halted, rfl⟩⟩
      · exact ⟨trivial, rfl, .inl rfl⟩

end Conveyor

/-- **With a prompt schedule a plan does to the books what a session does.** -/
theorem Plan.run_prompt {p : Plan σ} {now : Int64} (h : p.schedule = .prompt now)
    (books : Books) :
    (p.run books).2
      = (Session.run p.machine p.market p.source now p.streaming p.rounds
          (p.engine books)).2.store.handle.books := by
  unfold Plan.run Session.run
  rcases Session.resumeFrom p.machine.overflow (p.engine books) with (e | _) | next
  · rfl
  · rfl
  · have hrun := (Conveyor.alike_prompt p.machine p.market p.source now).run p.streaming p.rounds
      (.new ⟨p.engine books, .ok .zero⟩ next) (.new (.start (p.engine books)) next)
      ⟨⟨rfl, .inl rfl⟩, rfl, rfl, rfl⟩
    rw [← h] at hrun
    exact congrArg (fun intake => intake.engine.store.handle.books) hrun.2.world.1.symm

end FundTrail
