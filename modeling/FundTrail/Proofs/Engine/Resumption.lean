/-
  FundTrail.Proofs.Engine.Resumption
  ──────────────────────────────────
  **INGESTION BOOKS THE LONGEST GOOD START, AND CAN BE TAKEN UP AGAIN ANYWHERE.**

  What ingestion does is told by the engine alone: let it process the blocks one after
  the other, whether they can be booked or not, and see how far there is an account of
  each (`leading`).  These are the blocks that ingestion books; their accounts are what
  it counts; the next block is the last that it looks at; and the store it leaves is the
  one that the engine had before that block.

  On a chain that always answers the same, ingestion may also be stopped behind any of
  the blocks that can be booked, and another one, which knows nothing but the store, may
  take in the rest (`Engine.Kin`).

  Main facts: `ingested_ingest` and `ingest_commits_leading`.
-/
import FundTrail.Proofs.Engine.Chronicle
import FundTrail.Proofs.Engine.Forgetful
import FundTrail.Proofs.Engine.Split
import FundTrail.Ingestion

namespace FundTrail

open FundTrail.Store

variable {σ : Type}

/-! ## §1. Totals. -/

namespace IngestionTotals

/-- Totals taken together. -/
def plus (t u : IngestionTotals) : IngestionTotals :=
  ⟨t.batches + u.batches, t.transfers + u.transfers, t.swaps + u.swaps, t.skipped + u.skipped⟩

/-- The totals over blocks, from their accounts. -/
def of (summaries : List Summary) : IngestionTotals where
  batches := summaries.length
  transfers := (summaries.map Summary.transfers).sum
  swaps := (summaries.map Summary.swaps).sum
  skipped := (summaries.map Summary.skipped).sum

/-- What ingestion has come to, if `t` has been counted before it. -/
def onTop (t : IngestionTotals) :
    Except IngestionHalted IngestionTotals → Except IngestionHalted IngestionTotals
  | .ok u => .ok (t.plus u)
  | .error halted => .error { halted with totals := t.plus halted.totals }

theorem plus_zero (t : IngestionTotals) : t.plus .zero = t := rfl

theorem plus_add (t u : IngestionTotals) (s : Summary) : t.plus (u.add s) = (t.plus u).add s := by
  unfold plus add
  simp only [Nat.add_assoc]

theorem add_plus_of (s : Summary) (summaries : List Summary) :
    (zero.add s).plus (of summaries) = of (s :: summaries) := by
  unfold plus of add zero
  simp only [List.length_cons, List.map_cons, List.sum_cons, Nat.zero_add, Nat.add_comm 1]

end IngestionTotals

/-! ## §2. One block, and blocks in a row. -/

/-- Blocks that are processed at one time. -/
def stamped (now : Int64) (batches : List Batch) : List (Int64 × Batch) :=
  batches.map fun batch => (now, batch)

/-- The accounts of the blocks at the front, up to the first that was not booked. -/
def leading : List Processed → List Summary
  | [] => []
  | processed :: rest =>
    match processed.result with
    | .ok summary => summary :: leading rest
    | .error _ => []

theorem leading_cons_of_ok {processed : Processed} {summary : Summary} (rest : List Processed)
    (h : processed.result = .ok summary) :
    leading (processed :: rest) = summary :: leading rest := by
  rw [leading, h]

theorem leading_cons_of_error {processed : Processed} {error : StoreError}
    (rest : List Processed) (h : processed.result = .error error) :
    leading (processed :: rest) = [] := by
  rw [leading, h]

section

variable {m : Market σ} {now : Int64} {batch : Batch} {totals : IngestionTotals} {e : Engine σ}

theorem ingestFrom_cons_of_ok {summary : Summary} (batches : List Batch)
    (h : (e.process m now batch).1.result = .ok summary) :
    ingestFrom m now (batch :: batches) totals e
      = ingestFrom m now batches (totals.add summary) (e.process m now batch).2 := by
  rw [ingestFrom, ingestBatch]
  simp only [h]

theorem ingestFrom_cons_of_error {error : StoreError} (batches : List Batch)
    (h : (e.process m now batch).1.result = .error error) :
    ingestFrom m now (batch :: batches) totals e
      = (.error ⟨batch.number, error, totals⟩, (e.process m now batch).2) := by
  rw [ingestFrom, ingestBatch]
  simp only [h]

/-- What has been counted before is carried along. -/
theorem ingestFrom_plus (batches : List Batch) (t u : IngestionTotals) :
    ingestFrom m now batches (t.plus u) e
      = (t.onTop (ingestFrom m now batches u e).1, (ingestFrom m now batches u e).2) := by
  induction batches generalizing u e with
  | nil => rfl
  | cons batch batches ih =>
    cases hresult : (e.process m now batch).1.result with
    | error error =>
      rw [ingestFrom_cons_of_error batches hresult, ingestFrom_cons_of_error batches hresult]
      rfl
    | ok summary =>
      rw [ingestFrom_cons_of_ok batches hresult, ingestFrom_cons_of_ok batches hresult,
        ← IngestionTotals.plus_add]
      exact ih (u.add summary)

end

/-- Some blocks at the front have been booked, and `summaries` are the accounts of them. -/
structure Ingested (m : Market σ) (now : Int64) (batches : List Batch) (e : Engine σ)
    (summaries : List Summary) (run : Except IngestionHalted IngestionTotals × Engine σ) :
    Prop where
  le : summaries.length ≤ batches.length
  /-- They are the accounts of as many blocks. -/
  booked : (e.processAll m (stamped now (batches.take summaries.length))).1.map Processed.result
    = summaries.map .ok
  /-- The store is the one behind these blocks. -/
  store : run.2.store
    = (e.processAll m (stamped now (batches.take summaries.length))).2.store
  /-- Nobody has looked further than at the next block: neither has the chain been asked
  about more, nor is more remembered. -/
  asked : run.2 = (e.processAll m (stamped now (batches.take (summaries.length + 1)))).2
  /-- If these are all blocks, ingestion has come to its end. -/
  completed : summaries.length = batches.length → run.1 = .ok (.of summaries)
  /-- If not, it has stopped at the next one, which cannot be booked. -/
  halted : ∀ batch, batches[summaries.length]? = some batch → ∃ error,
    ((e.processAll m (stamped now (batches.take summaries.length))).2.process m now batch).1.result
        = .error error
      ∧ run.1 = .error ⟨batch.number, error, .of summaries⟩

/-- **Ingestion books the longest good start.** -/
theorem ingested_ingest (m : Market σ) (now : Int64) (batches : List Batch) (e : Engine σ) :
    Ingested m now batches e (leading (e.processAll m (stamped now batches)).1)
      (ingest m now batches e) := by
  induction batches generalizing e with
  | nil => exact ⟨Nat.le_refl 0, rfl, rfl, rfl, fun _ => rfl, nofun⟩
  | cons batch batches ih =>
    show Ingested m now _ e (leading ((e.process m now batch).1
      :: ((e.process m now batch).2.processAll m (stamped now batches)).1)) _
    unfold ingest
    cases hresult : (e.process m now batch).1.result with
    | error error =>
      rw [leading_cons_of_error _ hresult, ingestFrom_cons_of_error batches hresult]
      refine ⟨Nat.zero_le _, rfl, Engine.store_process_of_error hresult, rfl, nofun, ?_⟩
      intro _ h
      obtain rfl := Option.some.inj h
      exact ⟨error, hresult, rfl⟩
    | ok summary =>
      have hrest := ih (e.process m now batch).2
      rw [leading_cons_of_ok _ hresult, ingestFrom_cons_of_ok batches hresult,
        ← IngestionTotals.plus_zero (IngestionTotals.add _ summary), ingestFrom_plus]
      -- the block comes on top of what has been taken in behind it
      refine ⟨Nat.succ_le_succ hrest.le, congrArg₂ List.cons hresult hrest.booked, hrest.store,
        hrest.asked, fun h => ?_, fun b h => ?_⟩
      · show (IngestionTotals.zero.add summary).onTop (ingest m now batches _).1 = _
        rw [hrest.completed (Nat.succ.inj h)]
        exact congrArg Except.ok (IngestionTotals.add_plus_of summary _)
      · obtain ⟨error, herror, hrun⟩ := hrest.halted b h
        refine ⟨error, herror, ?_⟩
        show (IngestionTotals.zero.add summary).onTop (ingest m now batches _).1 = _
        rw [hrun]
        exact congrArg (fun t => Except.error (IngestionHalted.mk b.number error t))
          (IngestionTotals.add_plus_of summary _)

/-! ## §3. Ingestion in two parts. -/

section

variable {m : Market σ}

/-- Behind a first part that has been taken in comes the second. -/
theorem ingestFrom_append {now : Int64} {front : List Batch} (back : List Batch)
    {totals totals' : IngestionTotals} {e e' : Engine σ}
    (h : ingestFrom m now front totals e = (.ok totals', e')) :
    ingestFrom m now (front ++ back) totals e = ingestFrom m now back totals' e' := by
  induction front generalizing totals e with
  | nil =>
    obtain ⟨hok, rfl⟩ := Prod.mk.inj h
    obtain rfl := Except.ok.inj hok
    rfl
  | cons batch front ih =>
    cases hresult : (e.process m now batch).1.result with
    | error error =>
      rw [ingestFrom_cons_of_error front hresult] at h
      exact nomatch h
    | ok summary =>
      rw [ingestFrom_cons_of_ok front hresult] at h
      rw [List.cons_append, ingestFrom_cons_of_ok _ hresult]
      exact ih h

/-- Nothing is set anew on the way. -/
theorem exchanges_ingestFrom (now : Int64) (batches : List Batch) (totals : IngestionTotals)
    (e : Engine σ) :
    (ingestFrom m now batches totals e).2.exchanges = e.exchanges
      ∧ (ingestFrom m now batches totals e).2.settings = e.settings := by
  induction batches generalizing totals e with
  | nil => exact ⟨rfl, rfl⟩
  | cons batch batches ih =>
    have hone := e.exchanges_process m now batch
    cases hresult : (e.process m now batch).1.result with
    | error error =>
      rw [ingestFrom_cons_of_error batches hresult]
      exact hone
    | ok summary =>
      rw [ingestFrom_cons_of_ok batches hresult]
      obtain ⟨hexchanges, hsettings⟩ := ih (totals.add summary) (e.process m now batch).2
      exact ⟨hexchanges.trans hone.1, hsettings.trans hone.2⟩

variable {a : Answers} (hm : m.Steady a)

include hm

/-- **Engines that are the same to a steady chain take in the same blocks.** -/
theorem Engine.Kin.ingestFrom {e e' : Engine σ} (h : e.Kin a e') (now now' : Int64)
    (batches : List Batch) (totals : IngestionTotals) :
    (FundTrail.ingestFrom m now batches totals e).1
        = (FundTrail.ingestFrom m now' batches totals e').1
      ∧ Engine.Kin a (FundTrail.ingestFrom m now batches totals e).2
          (FundTrail.ingestFrom m now' batches totals e').2 := by
  induction batches generalizing totals e e' with
  | nil => exact ⟨rfl, h⟩
  | cons batch batches ih =>
    obtain ⟨hsame, hkin⟩ := h.process hm now now' batch
    cases hresult : (e.process m now batch).1.result with
    | error error =>
      have hresult' := hsame ▸ hresult
      rw [ingestFrom_cons_of_error batches hresult, ingestFrom_cons_of_error batches hresult']
      exact ⟨rfl, hkin⟩
    | ok summary =>
      have hresult' := hsame ▸ hresult
      rw [ingestFrom_cons_of_ok batches hresult, ingestFrom_cons_of_ok batches hresult']
      exact ih hkin (totals.add summary)

end

/-- A new engine on the same store is the same to a steady chain. -/
theorem Engine.kin_new {a : Answers} {e e' : Engine σ}
    (hfactories : ∀ p ∈ e.factories, a.factoryOf p.1 = .ok p.2)
    (hexchanges : e.exchanges = e'.exchanges) (hsettings : e.settings = e'.settings)
    {store : Shared} (hstore : e.store.SameButTime store) (chain : σ) :
    e.Kin a (.new e'.exchanges e'.settings store chain) :=
  ⟨hexchanges, hsettings, hstore, hfactories, fun _ hp => nomatch hp⟩

theorem processAll_take (m : Market σ) (calls : List (Int64 × Batch)) (e : Engine σ) (j : Nat) :
    (e.processAll m (calls.take j)).1 = (e.processAll m calls).1.take j := by
  induction j generalizing calls e with
  | zero => rfl
  | succ j ih =>
    cases calls with
    | nil => rfl
    | cons call calls => exact congrArg (List.cons _) (ih calls _)

theorem leading_take (processed : List Processed) (j : Nat) :
    leading (processed.take j) = (leading processed).take j := by
  induction j generalizing processed with
  | zero => rfl
  | succ j ih =>
    cases processed with
    | nil => rfl
    | cons first rest =>
      rw [List.take_succ_cons]
      cases hresult : first.result with
      | error error =>
        rw [leading_cons_of_error _ hresult, leading_cons_of_error _ hresult]
        rfl
      | ok summary =>
        rw [leading_cons_of_ok _ hresult, leading_cons_of_ok _ hresult, ih]
        rfl

/-- The blocks in front of a cut in the good start are all taken in. -/
theorem ingest_take_of_le (m : Market σ) (now : Int64) (batches : List Batch) (e : Engine σ)
    {j : Nat} (hj : j ≤ (leading (e.processAll m (stamped now batches)).1).length) :
    ∃ totals, (ingest m now (batches.take j) e).1 = .ok totals := by
  have hfront := ingested_ingest m now (batches.take j) e
  have hwhole := ingested_ingest m now batches e
  have htake : leading (e.processAll m (stamped now (batches.take j))).1
      = (leading (e.processAll m (stamped now batches)).1).take j := by
    rw [← leading_take, ← processAll_take]
    unfold stamped
    rw [List.map_take]
  refine ⟨_, hfront.completed ?_⟩
  rw [htake, List.length_take, List.length_take]
  have := hwhole.le
  omega

/-! ## §4. The longest good start. -/

/-- **Ingestion books the longest good start, and can be taken up again anywhere in it.**
The first part holds of every store and every chain.  The second is about a chain that
always answers the same: of the blocks that can be booked the first `j` are taken in by
one new engine and all others by another, which has the store that the first has left. -/
theorem ingest_commits_leading (m : Market σ) (now : Int64) (batches : List Batch)
    (e : Engine σ) :
    let summaries := leading (e.processAll m (stamped now batches)).1
    let run := ingest m now batches e
    Ingested m now batches e summaries run
      ∧ ∀ a, m.Steady a → (∀ p ∈ e.factories, a.factoryOf p.1 = .ok p.2) →
        ∀ j ≤ summaries.length, ∀ now₁ now₂ chain₁ chain₂,
          let first := ingest m now₁ (batches.take j)
            (.new e.exchanges e.settings e.store chain₁)
          let second := ingest m now₂ (batches.drop j)
            (.new e.exchanges e.settings first.2.store chain₂)
          ∃ totals, first.1 = .ok totals ∧ run.1 = totals.onTop second.1
            ∧ run.2.store.SameButTime second.2.store := by
  intro summaries run
  refine ⟨ingested_ingest m now batches e, ?_⟩
  intro a hm hfactories j hj now₁ now₂ chain₁ chain₂ first second
  obtain ⟨totals, htotals⟩ := ingest_take_of_le m now batches e hj
  -- the first part, on the engine that goes on and on a new one
  obtain ⟨hfirst, hkin⟩ := (Engine.kin_new hfactories rfl rfl (.refl e.store) chain₁).ingestFrom
    hm now now₁ (batches.take j) .zero
  obtain ⟨hexchanges, hsettings⟩ := exchanges_ingestFrom (m := m) now (batches.take j) .zero e
  -- the second part, on the engine that goes on and on another new one
  obtain ⟨hsecond, hkin'⟩ := (Engine.kin_new hkin.factories hexchanges hsettings hkin.store
    chain₂).ingestFrom hm now now₂ (batches.drop j) .zero
  have hrun : run = ingestFrom m now (batches.drop j) totals
      (ingestFrom m now (batches.take j) .zero e).2 := by
    have happend := ingestFrom_append (batches.drop j)
      (show ingestFrom m now (batches.take j) .zero e
        = (.ok totals, (ingestFrom m now (batches.take j) .zero e).2) from Prod.ext htotals rfl)
    rwa [List.take_append_drop] at happend
  rw [← IngestionTotals.plus_zero totals, ingestFrom_plus] at hrun
  refine ⟨totals, hfirst.symm.trans htotals, ?_, ?_⟩
  · rw [hrun, hsecond]
    rfl
  · rw [hrun]
    exact hkin'.store

/-- Two transfers of the exchange, a swap of the wallet, and another transfer, each in a
block of its own. -/
def fourBlocks : List Batch :=
  [⟨.clamp 1, .zero, roundTrip.transactions.take 1⟩,
    ⟨.clamp 2, .zero, roundTrip.transactions.take 1⟩,
    ⟨.clamp 3, .zero, roundTrip.transactions.drop 1⟩,
    ⟨.clamp 4, .zero, roundTrip.transactions.take 1⟩]

/-- An engine on books in which one of the tokens of the swap has a row that cannot be
read. -/
def tornEngine : Engine Unit :=
  .new firstEngine.exchanges .default
    ⟨⟨.readWrite, Books.empty.putRaw .token (shortAddress 5).toList [], true⟩, false⟩ ()

/-- Ingestion halts at the third block.  Cut behind the first block it halts there as
well, with one block less on the account of the second part. -/
theorem ingest_commits_leading_torn :
    let run := ingest evenMarket 0 fourBlocks tornEngine
    let first := ingest evenMarket 1 (fourBlocks.take 1)
      (.new tornEngine.exchanges tornEngine.settings tornEngine.store ())
    let second := ingest evenMarket 2 (fourBlocks.drop 1)
      (.new tornEngine.exchanges tornEngine.settings first.2.store ())
    (∃ error, run.1 = .error ⟨.clamp 3, error, ⟨2, 2, 0, 0⟩⟩)
      ∧ first.1 = .ok ⟨1, 1, 0, 0⟩
      ∧ run.1 = IngestionTotals.onTop ⟨1, 1, 0, 0⟩ second.1
      ∧ run.2.store.SameButTime second.2.store := by
  have hsteady : evenMarket.Steady evenAnswers :=
    ⟨fun _ _ => rfl, fun _ _ => rfl, fun _ _ _ _ => rfl⟩
  obtain ⟨hrun, hcut⟩ := ingest_commits_leading evenMarket 0 fourBlocks tornEngine
  have hleading : leading (tornEngine.processAll evenMarket (stamped 0 fourBlocks)).1
      = [⟨.clamp 1, 1, 1, 0, 0, 0⟩, ⟨.clamp 2, 1, 1, 0, 0, 0⟩] := by decide +kernel
  rw [hleading] at hrun hcut
  obtain ⟨error, -, hhalted⟩ := hrun.halted ⟨.clamp 3, .zero, roundTrip.transactions.drop 1⟩ rfl
  obtain ⟨totals, hfirst, hsecond, hstore⟩ :=
    hcut evenAnswers hsteady nofun 1 (by decide) 1 2 () ()
  obtain rfl : totals = ⟨1, 1, 0, 0⟩ := by
    have hone : (ingest evenMarket 1 (fourBlocks.take 1) (.new tornEngine.exchanges
        tornEngine.settings tornEngine.store ())).1.toOption = some ⟨1, 1, 0, 0⟩ := by
      decide +kernel
    rw [hfirst] at hone
    exact Option.some.inj hone
  exact ⟨⟨error, hhalted⟩, hfirst, hsecond, hstore⟩

end FundTrail
