/-
  FundTrail.Proofs.Engine.Unfailing
  ─────────────────────────────────
  **NOTHING THAT A CHAIN SAYS HOLDS UP INGESTION.**

  A chain may leave a question unanswered, answer it with nonsense, and answer it
  differently the next time; the input of a transaction may be any bytes.  The
  swap that runs into it is skipped, and that is all.  What does end a block is a
  row that cannot be read: so in books that can be read every block is booked,
  and they can be read again afterwards.

  Main fact: `ingestion_never_halts`.
-/
import FundTrail.Proofs.Engine.Steady
import FundTrail.Proofs.Engine.Bookable
import FundTrail.Proofs.Stream.Alike
import FundTrail.Session

namespace FundTrail

open FundTrail.Store

variable {σ : Type}

/-! ## §1. A question fails by skipping its swap. -/

section

open Asking

/-- Nothing is asked of the state, and nothing is said of the answer. -/
theorem obeys_anything {ε α : Type} (x : Asking σ ε α) :
    Obeys (fun _ => True) (fun _ => True) x :=
  fun _ _ => ⟨trivial, trivial⟩

/-- What fails for a reason of its own is skipped for that reason. -/
theorem unhalted_withError {ε α : Type} (reason : ε → SkipReason) (x : Asking σ ε α) :
    Obeys (fun _ => True) (Unhalted fun _ => True) (x.withError fun e => .skip (reason e)) :=
  (obeys_anything x).withError fun r _ => unhalted_mapError reason r

variable (m : Market σ) {books : Books} (hb : books.Readable)

include hb

theorem unhalted_metadataOf (token : Address) :
    Obeys (fun _ => True) (Unhalted fun _ => True) (Desk.metadataOf m books token) := by
  intro d _
  refine ⟨?_, trivial⟩
  obtain ⟨found, hfind⟩ : ∃ found, books.find? .tokens token = .ok found :=
    hb.find? .token Table.keyed_tokens token
  unfold Desk.metadataOf
  split
  next => trivial
  next =>
    rw [hfind]
    cases found with
    | some row => trivial
    | none =>
      -- only the chain can fail to answer
      simp only
      split
      next => trivial
      next => trivial

theorem unhalted_metadataAlong (path : List Address) :
    Obeys (fun _ => True) (Unhalted fun _ => True) (Desk.metadataAlong m books path) := by
  induction path with
  | nil => exact .pure trivial
  | cons token path ih =>
    refine (unhalted_metadataOf m hb token).bind (fun answer _ => ?_) fun e => Unhalted.error e
    exact ih.bind (fun answers _ => .pure trivial) fun e => Unhalted.error e

theorem unhalted_resolveSwap (fee : Option Fee) (tx : Transaction) (wallet router : Address) :
    Obeys (fun _ => True) (Unhalted fun _ => True)
      (resolveSwap m fee books tx wallet router) := by
  unfold resolveSwap
  -- the call, the factory, the tokens, the price: each of them may be what fails
  refine (Obeys.ofExcept (unhalted_mapError .undecodable _)).bind (fun call _ => ?_) fun e =>
    Unhalted.error e
  refine (unhalted_withError .unanswered _).bind (fun factory _ => ?_) fun e => Unhalted.error e
  refine (unhalted_metadataAlong m hb call.path).bind (fun tokens _ => ?_) fun e =>
    Unhalted.error e
  cases tokens.getLast? with
  | none => exact .fail trivial
  | some last =>
    exact (unhalted_withError .unpriced _).bind (fun price _ => .pure trivial) fun e =>
      Unhalted.error e

theorem exists_resolve (exchanges : ExchangeSet) (settings : Settings) (funded : List Address)
    (tx : Transaction) :
    Obeys (fun _ => True) (fun x => ∃ r, x = .ok r)
      (resolve m exchanges settings books funded tx) := by
  unfold resolve
  split
  next => exact .pure ⟨_, rfl⟩
  next => exact .pure ⟨_, rfl⟩
  next wallet router _ _ =>
    -- a swap is found out or skipped
    intro d _
    refine ⟨?_, trivial⟩
    have hswap := (unhalted_resolveSwap m hb settings.fee tx wallet router d trivial).1
    simp only
    split
    next => exact ⟨_, rfl⟩
    next => exact ⟨_, rfl⟩
    next e _ hs =>
      rw [hs] at hswap
      exact hswap.elim

/-- **In readable books every transaction is resolved**, whatever the chain says. -/
theorem exists_resolveAll (exchanges : ExchangeSet) (settings : Settings)
    (funded : List Address) (txs : List Transaction) :
    Obeys (fun _ => True) (fun x => ∃ rs, x = .ok rs)
      (resolveAll m exchanges settings books funded txs) := by
  induction txs generalizing funded with
  | nil => exact .pure ⟨[], rfl⟩
  | cons tx txs ih =>
    refine (exists_resolve m hb exchanges settings funded tx).bind (fun r _ => ?_) ?_
    · refine (ih (r.funded ++ funded)).bind (fun rs _ => .pure ⟨r :: rs, rfl⟩) ?_
      rintro e ⟨_, ⟨⟩⟩
    · rintro e ⟨_, ⟨⟩⟩

end

/-! ## §2. Engines in order. -/

namespace Engine

/-- The store can be used, written and read, and the names of the exchanges can be
written down. -/
structure InOrder (e : Engine σ) : Prop where
  open_ : e.store.poisoned = false
  writable : e.store.handle.access = .readWrite
  readable : e.store.handle.books.Readable
  names : e.exchanges.Short

section

variable {m : Market σ} (hm : m.Short) {e : Engine σ}

include hm

/-- **An engine in order commits every block, and is in order again.** -/
theorem InOrder.committed (he : e.InOrder) (now : Int64) (batch : Batch) :
    ∃ outcomes rs desk booked, Committed m now batch e outcomes rs desk booked
      ∧ (e.process m now batch).2.InOrder := by
  let start : Desk σ := ⟨e.chain, e.factories, [], []⟩
  obtain ⟨rs, hrs⟩ := (exists_resolveAll m he.readable e.exchanges e.settings []
    batch.transactions start trivial).1
  obtain ⟨desk, hresolved⟩ : ∃ desk, resolveAll m e.exchanges e.settings
      e.store.handle.books [] batch.transactions start = (.ok rs, desk) := ⟨_, Prod.ext hrs rfl⟩
  -- what has been resolved can be booked, because it is sound
  obtain ⟨outcomes, booked, hbooking, hreadable⟩ :=
    exists_bookAll he.readable he.names (resolutions hm hresolved).sound
  have hc : Committed m now batch e outcomes rs desk booked :=
    committed_of_booked he.open_ he.writable hresolved hbooking
  refine ⟨outcomes, rs, desk, booked, hc, ?_⟩
  rw [hc.after]
  exact ⟨he.open_, he.writable,
    hreadable.put .cursor Table.keyed_cursor ⟨_, Table.keeps_cursor _⟩, he.names⟩

theorem InOrder.process (he : e.InOrder) (now : Int64) (batch : Batch) :
    (∃ summary, (e.process m now batch).1.result = .ok summary)
      ∧ (e.process m now batch).2.InOrder := by
  obtain ⟨outcomes, _, _, _, hc, horder⟩ := he.committed hm now batch
  exact ⟨⟨Summary.ofOutcomes batch.number outcomes, hc.result_eq⟩, horder⟩

theorem InOrder.processAll (he : e.InOrder) (calls : List (Int64 × Batch)) :
    (∀ processed ∈ (e.processAll m calls).1, ∃ summary, processed.result = .ok summary)
      ∧ (e.processAll m calls).2.InOrder := by
  induction calls generalizing e with
  | nil => exact ⟨nofun, he⟩
  | cons call calls ih =>
    obtain ⟨hone, horder⟩ := he.process hm call.1 call.2
    obtain ⟨hrest, horder'⟩ := ih horder
    refine ⟨?_, horder'⟩
    intro processed hmem
    rcases List.mem_cons.mp hmem with rfl | hmem
    · exact hone
    · exact hrest processed hmem

/-! ## §3. Ingestion and sessions. -/

theorem InOrder.ingestBatch (he : e.InOrder) (now : Int64) (batch : Batch)
    (totals : IngestionTotals) :
    ∃ summary, (ingestBatch m now batch totals e).1 = .ok (totals.add summary)
      ∧ (ingestBatch m now batch totals e).2.InOrder := by
  obtain ⟨⟨summary, hresult⟩, horder⟩ := he.process hm now batch
  unfold FundTrail.ingestBatch
  simp only [hresult]
  exact ⟨summary, rfl, horder⟩

theorem InOrder.ingestFrom (he : e.InOrder) (now : Int64) (batches : List Batch)
    (totals : IngestionTotals) :
    ∃ totals', (ingestFrom m now batches totals e).1 = .ok totals'
      ∧ totals'.batches = totals.batches + batches.length
      ∧ (ingestFrom m now batches totals e).2.InOrder := by
  induction batches generalizing e totals with
  | nil => exact ⟨totals, rfl, rfl, he⟩
  | cons batch batches ih =>
    obtain ⟨summary, hone, horder⟩ := he.ingestBatch hm now batch totals
    obtain ⟨totals', hrest, hcount, horder'⟩ := ih horder (totals.add summary)
    have hstep : FundTrail.ingestBatch m now batch totals e
        = (.ok (totals.add summary), (FundTrail.ingestBatch m now batch totals e).2) :=
      Prod.ext hone rfl
    unfold FundTrail.ingestFrom
    rw [hstep]
    refine ⟨totals', hrest, ?_, horder'⟩
    rw [hcount, List.length_cons]
    show totals.batches + 1 + batches.length = _
    omega

/-- Through a whole session the engine stays in order, and nothing stops it. -/
theorem keeps_inOrder (machine : Machine) (source : BlockSource σ) (now : Int64) :
    (Session.conduit machine m source now).Keeps fun w =>
      w.engine.InOrder ∧ ∃ totals, w.progress = .ok totals := by
  have hask : ∀ (question : σ → Option (Except ChainError Batch) × σ) (w : Intake σ),
      w.engine.InOrder ∧ (∃ totals, w.progress = .ok totals) →
      (Session.asking question w).2.engine.InOrder
        ∧ ∃ totals, (Session.asking question w).2.progress = .ok totals := by
    intro question w hw
    exact ⟨⟨hw.1.open_, hw.1.writable, hw.1.readable, hw.1.names⟩, hw.2⟩
  refine ⟨fun number => hask _, fun hash => hask _, ?_⟩
  rintro batch w ⟨hw, totals, htotals⟩
  obtain ⟨summary, hone, horder⟩ := hw.ingestBatch hm now batch totals
  show (Session.deliver m now batch w).2.engine.InOrder
    ∧ ∃ totals, (Session.deliver m now batch w).2.progress = .ok totals
  unfold Session.deliver
  rw [htotals]
  exact ⟨horder, _, hone⟩

end

theorem InOrder.resumeFrom {e : Engine σ} (he : e.InOrder) (o : Overflow) :
    (∃ next, Session.resumeFrom o e = .ok next) ∨ Session.resumeFrom o e = .error .panicked := by
  obtain ⟨found, hfind⟩ : ∃ found, e.store.handle.books.find? .cursor () = .ok found :=
    he.readable.find? .cursor Table.keyed_cursor ()
  have hlast : e.lastProcessed = .ok found := by
    unfold lastProcessed
    rw [Shared.books?_of_open he.open_]
    exact hfind
  unfold Session.resumeFrom
  rw [hlast]
  cases found with
  | none => exact .inl ⟨none, rfl⟩
  | some cursor =>
    cases hnext : cursor.number.plus? o 1 with
    | none => exact .inr (by simp only [hnext])
    | some next => exact .inl ⟨some next, by simp only [hnext]⟩

theorem InOrder.session {m : Market σ} (hm : m.Short) {e : Engine σ} (he : e.InOrder)
    (machine : Machine) (source : BlockSource σ) (now : Int64) (settings : StreamSettings)
    (rounds : List Round) :
    ∃ report totals, (Session.run machine m source now settings rounds e).1 = .ok report
      ∧ report.ingestion = .ok totals := by
  unfold Session.run
  rcases he.resumeFrom machine.overflow with ⟨next, hnext⟩ | hpanicked
  · have hkept := (keeps_inOrder hm machine source now).run settings rounds
      (s := .new ⟨e, .ok .zero⟩ next) ⟨he, .zero, rfl⟩
    obtain ⟨totals, htotals⟩ := hkept.2
    rw [hnext]
    exact ⟨_, totals, rfl, htotals⟩
  · rw [hpanicked]
    exact ⟨.unbegun, .zero, rfl, rfl⟩

end Engine

/-- **A store that can be read takes in every block**, whatever is in it and
whatever the chain says to it, and can be read again afterwards.  So no run of
blocks comes to a halt: not block by block, not sent through ingestion, and not
in a session that streams them. -/
theorem ingestion_never_halts {m : Market σ} (hm : m.Short) {e : Engine σ} (he : e.InOrder) :
    (∀ now batch, (∃ summary, (e.process m now batch).1.result = .ok summary)
        ∧ (e.process m now batch).2.store.handle.books.Readable)
    ∧ (∀ calls, (∀ processed ∈ (e.processAll m calls).1,
          ∃ summary, processed.result = .ok summary)
        ∧ (e.processAll m calls).2.store.handle.books.Readable)
    ∧ (∀ now batches, ∃ totals, (ingest m now batches e).1 = .ok totals
        ∧ totals.batches = batches.length)
    ∧ ∀ machine source now settings rounds, ∃ report totals,
        (Session.run machine m source now settings rounds e).1 = .ok report
        ∧ report.ingestion = .ok totals := by
  refine ⟨fun now batch => ?_, fun calls => ?_, fun now batches => ?_, ?_⟩
  · obtain ⟨hone, horder⟩ := he.process hm now batch
    exact ⟨hone, horder.readable⟩
  · obtain ⟨hall, horder⟩ := he.processAll hm calls
    exact ⟨hall, horder.readable⟩
  · obtain ⟨totals, hall, hcount, -⟩ := he.ingestFrom hm now batches .zero
    exact ⟨totals, hall, hcount.trans (Nat.zero_add _)⟩
  · exact fun machine source now settings rounds =>
      he.session hm machine source now settings rounds

/-! ## §4. A chain to fear. -/

/-- Fails the first time it is asked anything, names a token without a text and
with more decimals every time, and has no reserves. -/
def moodyMarket : Market Nat where
  factoryOf _ asked :=
    (if asked = 0 then .error (.provider "busy") else .ok (shortAddress 9), asked + 1)
  metadataOf _ asked := (.ok ⟨"", UInt8.ofNat (50 + 7 * asked)⟩, asked + 1)
  reservesOf _ _ _ asked := (.ok ⟨.clamp 0, .clamp 0⟩, asked + 1)

theorem short_moodyMarket : moodyMarket.Short := by
  intro token asked answer h
  obtain rfl := Except.ok.inj h
  show IsShort ""
  decide

/-- An exchange funds a wallet, and the wallet tries to swap: twice along a path,
then with the selector of the method alone, then along a path again. -/
def vainAttempts : Batch := ⟨.clamp 1, .zero, [
  ⟨.ofPrefix [1], shortAddress 1, some (shortAddress 2), oneEther, []⟩,
  ⟨.ofPrefix [2], shortAddress 2, some (shortAddress 3), oneEther,
    swapInput [shortAddress 4, shortAddress 5]⟩,
  ⟨.ofPrefix [3], shortAddress 2, some (shortAddress 3), oneEther,
    swapInput [shortAddress 4, shortAddress 5]⟩,
  ⟨.ofPrefix [4], shortAddress 2, some (shortAddress 3), oneEther,
    SwapMethod.exactEthForTokens.selector.toList⟩,
  ⟨.ofPrefix [5], shortAddress 2, some (shortAddress 3), oneEther,
    swapInput [shortAddress 6, shortAddress 7]⟩]⟩

/-- The same store as that of `firstEngine`, on a chain to fear. -/
def moodyEngine : Engine Nat :=
  .new firstEngine.exchanges .default ⟨.new, false⟩ 0

theorem inOrder_moodyEngine : moodyEngine.InOrder := by
  refine ⟨rfl, rfl, Books.readable_empty, ?_⟩
  intro wallet name h
  obtain rfl : name = "X" := congrArg Prod.snd (List.mem_singleton.mp (mem_of_lookup h))
  decide

/-- All four attempts are skipped, each for another reason, and the transfer is
booked. -/
theorem ingestion_never_halts_vainAttempts :
    let processed := (moodyEngine.process moodyMarket 0 vainAttempts).1
    processed.result.toOption = some ⟨.clamp 1, 5, 1, 0, 4, 0⟩
      ∧ processed.skips.map Prod.snd
        = [.unanswered (.provider "busy"), .unpriced (.zeroReserve 0),
          .undecodable .noArguments, .unpriced (.decimalsOutOfRange 92)]
      ∧ ∀ now batches, ∃ totals,
          (ingest moodyMarket now batches (moodyEngine.process moodyMarket 0 vainAttempts).2).1
            = .ok totals
          ∧ totals.batches = batches.length := by
  have horder := (inOrder_moodyEngine.process short_moodyMarket 0 vainAttempts).2
  exact ⟨by decide +kernel, by decide +kernel,
    (ingestion_never_halts short_moodyMarket horder).2.2.1⟩

end FundTrail
