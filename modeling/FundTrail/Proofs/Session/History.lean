/-
  FundTrail.Proofs.Session.History
  ────────────────────────────────
  **OVER ALL SESSIONS, EVERY BLOCK IS BOOKED AT MOST ONCE AND IN ORDER.**

  A session takes up the stored cursor, and what it books is a beginning of what
  its streamer has handed over, whatever was lost with it.  The cursor it leaves
  names the last block that it has booked, so the next session follows on.

  Main fact: `history_ordered`.
-/
import FundTrail.Proofs.Session.Belt

namespace FundTrail

open FundTrail.Store

variable {σ : Type}

/-! ## §1. One session. -/

/-- The height that the stored cursor names, if there is one. -/
def Store.Books.reached (books : Books) : List Height :=
  match books.cursor? with
  | .ok (some cursor) => [cursor.number]
  | _ => []

/-- The chain of a session is honest about all headers that are announced, and
there is a height behind each of them. -/
structure Plan.Honest (p : Plan σ) : Prop where
  source : p.source.Honest p.headers
  below : ∀ header ∈ p.headers, header.number.toNat + 1 < 2 ^ 64

/-- The belt passes on what the source says. -/
theorem Conveyor.honest_conduit {source : BlockSource σ} {headers : List Header}
    (machine : Machine) (m : Market σ) (schedule : Schedule) (h : source.Honest headers) :
    (conduit machine m source schedule).source.Honest headers where
  byNumber number w := h.byNumber number w.intake.engine.chain
  byHash header hmem w := h.byHash header hmem w.intake.engine.chain

namespace Plan

theorem headersOf_subset (p : Plan σ) {round : Round} (h : round ∈ p.rounds) :
    Streamer.headersOf round ⊆ p.headers := by
  intro header hmem
  exact List.mem_flatMap.mpr ⟨round, h, hmem⟩

/-- A session resumes behind the cursor, if there is one, and begins in step. -/
theorem resumeFrom_cases (p : Plan σ) {books : Books}
    (hbelow : ∀ n ∈ books.reached, n.toNat + 1 < 2 ^ 64) :
    (∃ e, Session.resumeFrom p.machine.overflow (p.engine books) = .error e ∧ books.reached = [])
      ∨ ∃ next, Session.resumeFrom p.machine.overflow (p.engine books) = .ok next
          ∧ Aligned p.streaming p.headers books.reached next := by
  have hlast : (p.engine books).lastProcessed = books.cursor? := rfl
  unfold Session.resumeFrom
  rw [hlast]
  unfold Store.Books.reached at hbelow ⊢
  generalize books.cursor? = found at hbelow ⊢
  rcases found with e | _ | cursor
  · exact .inl ⟨_, rfl, rfl⟩
  · exact .inr ⟨none, rfl, .nil, nofun, nofun⟩
  · have hroom := hbelow cursor.number (List.mem_singleton_self _)
    have hnext := Word.toNat_next_of_lt hroom
    simp only [Word.plus?_one_of_lt hroom]
    refine .inr ⟨_, rfl, .singleton _, hbelow, fun last hlast => ?_⟩
    obtain rfl : cursor.number = last := Option.some.inj hlast
    exact ⟨_, rfl, by omega, fun _ => hnext⟩

/-- What a session books follows on from the cursor that it has found. -/
theorem run_follows {p : Plan σ} (hp : p.Honest) {books : Books}
    (hbelow : ∀ n ∈ books.reached, n.toNat + 1 < 2 ^ 64) :
    (books.reached ++ (p.run books).1.map Batch.number).IsChain (Follows p.streaming p.headers)
    ∧ ∀ n ∈ books.reached ++ (p.run books).1.map Batch.number, n.toNat + 1 < 2 ^ 64 := by
  unfold Plan.run
  rcases p.resumeFrom_cases hbelow with ⟨e, hresume, hnone⟩ | ⟨next, hresume, haligned⟩
  · -- the cursor cannot be read: the session does nothing
    rw [hresume, hnone]
    exact ⟨.nil, nofun⟩
  · rw [hresume]
    -- nothing is on the belt yet, and the stream begins behind the cursor
    have hstart : InStep p.streaming p.headers Conveyor.sent books.reached
        (.new (.start (p.engine books)) next) := by
      show Aligned p.streaming p.headers (books.reached ++ []) next
      rw [List.append_nil]
      exact haligned
    have hend : InStep p.streaming p.headers Conveyor.sent books.reached (p.stream books next) :=
      hstart.run (Conveyor.records_sent p.machine p.market p.source p.schedule)
        (Conveyor.honest_conduit p.machine p.market p.schedule hp.source) hp.below
        fun _ h => p.headersOf_subset h
    -- what has been booked is the beginning of what has been sent
    have hsplit : books.reached ++ (Conveyor.sent (p.stream books next).world).map Batch.number
        = (books.reached ++ (p.stream books next).world.booked.map Batch.number)
          ++ (p.stream books next).world.waiting.map Batch.number := by
      unfold Conveyor.sent
      rw [List.map_append, List.append_assoc]
    unfold InStep at hend
    rw [hsplit] at hend
    exact ⟨hend.chain.left_of_append, fun n hn => hend.below n (List.mem_append_left _ hn)⟩

/-- A session leaves books that stand behind what it has booked. -/
theorem stand_run (p : Plan σ) (books : Books) :
    Stand books (p.run books).1 (p.run books).2 := by
  unfold Plan.run
  cases Session.resumeFrom p.machine.overflow (p.engine books) with
  | error e => rfl
  | ok next =>
    exact (Conveyor.keeps_stand p.machine p.market p.source p.schedule books).run p.streaming
      p.rounds (s := .new (.start (p.engine books)) next) rfl

end Plan

/-! ## §2. One session after the other. -/

/-- The cursor that books stand at is at the end of what has been booked. -/
theorem Stand.reached {before after : Books} {booked : List Batch}
    (h : Stand before booked after) :
    after.reached = (before.reached ++ booked.map Batch.number).getLast?.toList := by
  unfold Stand at h
  rcases booked.eq_nil_or_concat' with rfl | ⟨init, batch, rfl⟩
  -- nothing has been booked
  · obtain rfl : after = before := h
    rw [List.map_nil, List.append_nil]
    unfold Store.Books.reached
    split <;> rfl
  -- the cursor names the last block
  · rw [List.getLast?_concat] at h
    obtain ⟨now, h⟩ := h
    rw [List.map_append, ← List.append_assoc, List.map_singleton, List.getLast?_concat]
    unfold Store.Books.reached
    rw [h]
    rfl

theorem Stand.trans {a b c : Books} {first rest : List Batch} (h₁ : Stand a first b)
    (h₂ : Stand b rest c) : Stand a (first ++ rest) c := by
  unfold Stand at h₂ ⊢
  rw [List.getLast?_append]
  cases hl : rest.getLast? with
  | none =>
    rw [hl] at h₂
    obtain rfl : c = b := h₂
    exact h₁
  | some batch =>
    rw [hl] at h₂
    exact h₂

/-- Two chains that share the end of the one as the beginning of the other. -/
theorem isChain_append_of_getLast? {α : Type} {R : α → α → Prop} {l₁ l₂ : List α}
    (h₁ : l₁.IsChain R) (h₂ : (l₁.getLast?.toList ++ l₂).IsChain R) : (l₁ ++ l₂).IsChain R := by
  obtain ⟨-, hl₂, hbetween⟩ := List.isChain_append.mp h₂
  refine h₁.append hl₂ fun x hx y hy => hbetween x ?_ y hy
  rw [Option.mem_def.mp hx]
  rfl

/-- The block at `b` is booked directly after the one at `a`, for all that the
sessions of `plans` allow. -/
def Succeeds (plans : List (Plan σ)) (a b : Height) : Prop :=
  a < b ∧ ((∀ p ∈ plans, p.streaming.backfill = true) →
    b.toNat = a.toNat + 1
    ∨ ∃ p ∈ plans, Skips p.streaming.maxBackfill p.headers (a.toNat + 1) b.toNat)

theorem Follows.succeeds {plans : List (Plan σ)} {p : Plan σ} (hp : p ∈ plans) {a b : Height}
    (h : Follows p.streaming p.headers a b) : Succeeds plans a b :=
  ⟨h.1, fun hb => (h.2 (hb p hp)).imp_right fun hskips => ⟨p, hp, hskips⟩⟩

theorem Succeeds.mono {plans : List (Plan σ)} (p : Plan σ) {a b : Height}
    (h : Succeeds plans a b) : Succeeds (p :: plans) a b := by
  refine ⟨h.1, fun hb => ?_⟩
  refine (h.2 fun q hq => hb q (List.mem_cons_of_mem _ hq)).imp_right ?_
  rintro ⟨q, hq, hskips⟩
  exact ⟨q, List.mem_cons_of_mem _ hq, hskips⟩

/-- What the sessions book follows on from the cursor that the first has found,
and the books stand behind all of it. -/
theorem history_succeeds (plans : List (Plan σ)) (hplans : ∀ p ∈ plans, p.Honest)
    (books : Books) (hbelow : ∀ n ∈ books.reached, n.toNat + 1 < 2 ^ 64) :
    (books.reached ++ (history plans books).1.map Batch.number).IsChain (Succeeds plans)
    ∧ Stand books (history plans books).1 (history plans books).2 := by
  induction plans generalizing books with
  | nil =>
    -- there is at most one height to begin with
    refine ⟨?_, rfl⟩
    show (books.reached ++ []).IsChain _
    rw [List.append_nil]
    unfold Store.Books.reached
    split
    next => exact .singleton _
    next => exact .nil
  | cons p plans ih =>
    obtain ⟨hchain, hbelow'⟩ := Plan.run_follows (hplans p List.mem_cons_self) hbelow
    have hstand := p.stand_run books
    obtain ⟨hrest, hstand'⟩ := ih (fun q hq => hplans q (List.mem_cons_of_mem _ hq))
      (p.run books).2 (by
        rw [hstand.reached]
        intro n hn
        exact hbelow' n (List.mem_of_getLast? (Option.mem_toList.mp hn)))
    refine ⟨?_, hstand.trans hstand'⟩
    show (books.reached
      ++ ((p.run books).1 ++ (history plans (p.run books).2).1).map Batch.number).IsChain _
    rw [List.map_append, ← List.append_assoc]
    -- the seam is the height that the cursor names
    refine isChain_append_of_getLast? ?_ ?_
    · exact hchain.imp fun _ _ h => h.succeeds List.mem_cons_self
    · rw [← hstand.reached]
      exact hrest.imp fun _ _ h => h.mono p

instance : Trans (α := Height) (· < ·) (· < ·) (· < ·) where
  trans h₁ h₂ := Nat.lt_trans h₁ h₂

/-- **Over all sessions the blocks are booked upwards, each at most once.**  The
cursor names the last of them, and with backfill a height is left out only where
a header was further ahead than the limit. -/
theorem history_ordered (plans : List (Plan σ)) (hplans : ∀ p ∈ plans, p.Honest)
    (books : Books) (hbelow : ∀ n ∈ books.reached, n.toNat + 1 < 2 ^ 64) :
    (books.reached ++ (history plans books).1.map Batch.number).Pairwise (· < ·)
    ∧ Stand books (history plans books).1 (history plans books).2
    ∧ ((∀ p ∈ plans, p.streaming.backfill = true) →
        (books.reached ++ (history plans books).1.map Batch.number).IsChain fun a b =>
          b.toNat = a.toNat + 1
          ∨ ∃ p ∈ plans, Skips p.streaming.maxBackfill p.headers (a.toNat + 1) b.toNat) := by
  obtain ⟨hchain, hstand⟩ := history_succeeds plans hplans books hbelow
  have hup := hchain.imp fun _ _ h => h.1
  exact ⟨hup.pairwise, hstand, fun hb => hchain.imp fun _ _ h => h.2 hb⟩

/-- A chain of empty blocks: the hash of a block begins with its number. -/
def quietSource : BlockSource Unit where
  byNumber number _ := (some (.ok ⟨number, .ofPrefix [UInt8.ofNat number.toNat], []⟩), ())
  byHash hash _ :=
    (some (.ok ⟨.clamp ((hash.toList.head?.getD 0).toNat), hash, []⟩), ())

/-- A session on the quiet chain: the blocks that are announced, and how the
booking keeps up. -/
def quietPlan (announced : List UInt8) (pace : Nat → Nat) : Plan Unit where
  market := ⟨fun _ => .fail .subscriptionClosed, fun _ => .fail .subscriptionClosed,
    fun _ _ _ => .fail .subscriptionClosed⟩
  source := quietSource
  chain := ()
  exchanges := .empty
  settings := .default
  access := .readWrite
  streaming := ⟨.ofSeconds 1, .ofSeconds 0, .ofSeconds 0, .clamp 3, true, .clamp 16⟩
  rounds := [.headers (announced.map fun n => ⟨.clamp n.toNat, .ofPrefix [n]⟩)]
  machine := ⟨.panics, fun _ => 0⟩
  schedule := ⟨pace, fun _ => 0⟩

theorem quietPlan_honest (announced : List UInt8) (pace : Nat → Nat) :
    (quietPlan announced pace).Honest := by
  have hheader : ∀ header ∈ (quietPlan announced pace).headers,
      ∃ n : UInt8, header = ⟨.clamp n.toNat, .ofPrefix [n]⟩ := by
    intro header hmem
    obtain ⟨round, hround, hmem⟩ := List.mem_flatMap.mp hmem
    obtain rfl := List.mem_singleton.mp hround
    obtain ⟨n, -, rfl⟩ := List.mem_map.mp hmem
    exact ⟨n, rfl⟩
  refine ⟨⟨?_, ?_⟩, ?_⟩
  · intro number w batch h
    obtain rfl := Except.ok.inj (Option.some.inj h)
    rfl
  · intro header hmem w batch h
    obtain ⟨n, rfl⟩ := hheader header hmem
    obtain rfl := Except.ok.inj (Option.some.inj h)
    rfl
  · intro header hmem
    obtain ⟨n, rfl⟩ := hheader header hmem
    have hn := n.toNat_lt
    show min n.toNat (2 ^ 64 - 1) + 1 < 2 ^ 64
    omega

/-- A session that breaks off with block 6 still on the belt, and one that is
told of block 8 only. -/
def lostBlock : List (Plan Unit) :=
  [quietPlan [5, 6] fun move => if move < 3 then 1 else 0, quietPlan [8] fun _ => 1]

-- only the kernel runs the sessions
attribute [local irreducible] history

/-- Block 6 is fetched again, and block 7 with it. -/
theorem history_ordered_lostBlock :
    (history lostBlock .empty).1.map (fun b => b.number.toNat) = [5, 6, 7, 8]
    ∧ ((history lostBlock .empty).1.map Batch.number).Pairwise (· < ·)
    ∧ Stand .empty (history lostBlock .empty).1 (history lostBlock .empty).2 := by
  have h := history_ordered lostBlock
    (by
      intro p hp
      rcases List.mem_pair.mp hp with rfl | rfl <;> exact quietPlan_honest _ _)
    .empty nofun
  exact ⟨by decide +kernel, h.1, h.2.1⟩

end FundTrail
