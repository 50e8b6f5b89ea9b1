/-
  FundTrail.Proofs.Engine.Atomic
  ──────────────────────────────
  **WHOEVER LOOKS SEES WHOLE BLOCKS ONLY.**

  After any run of blocks, booked or not, the store is the one right behind the
  last block that was booked, and its cursor names that block.  While the next
  block is being booked its rows are written one after the other in a
  transaction, but a second handle that only reads sees none of them, wherever
  between two writes it looks.

  Main fact: `process_atomic`.
-/
import FundTrail.Proofs.Engine.Journal
import FundTrail.Proofs.Engine.Sound
import FundTrail.Store.Script

namespace FundTrail

open FundTrail.Store

variable {σ : Type}

/-! ## §1. Looking into an open transaction. -/

/-- The change makes this edit and no other, whatever the books are. -/
def Store.Change.Makes (now : Int64) (change : Change) (e : Edit) : Prop :=
  ∀ b, ∃ answer, (change.apply now).on b = ([e], .ok answer)

theorem Store.Change.put_makes (now : Int64) (bucket : Bucket) (record : bucket.Record) :
    (Change.put bucket record).Makes now (.set (bucket.layout.write record)) :=
  fun _ => ⟨.done, rfl⟩

/-- The steps make the edits of a journal, in order, with looks through a second handle
woven in anywhere. -/
inductive Woven (now : Int64) : List Edit → List Step → Prop where
  | done : Woven now [] []
  | edit {change : Change} {e : Edit} {edits : List Edit} {steps : List Step} :
      change.Makes now e → Woven now edits steps →
      Woven now (e :: edits) (.change change :: steps)
  | look (step : Step) {edits : List Edit} {steps : List Step} :
      Woven now edits steps → Woven now edits (.reader step :: steps)

/-- A handle with the edits of a journal made on its books. -/
def drafted (edits : List Edit) (h : Handle) : Handle :=
  edits.foldl (fun h e => { h with books := e.apply h.books, written := true }) h

theorem drafted_of_ne_nil {edits : List Edit} (hedits : edits ≠ []) (h : Handle) :
    drafted edits h = { h with books := h.books.edited edits, written := true } := by
  induction edits generalizing h with
  | nil => exact absurd rfl hedits
  | cons e edits ih =>
    cases edits with
    | nil => rfl
    | cons next edits => exact ih (List.cons_ne_nil next edits) _

/-- An edit goes through on a handle that may write. -/
theorem run_change {now : Int64} (committed : Option Handle) {change : Change} {e : Edit}
    (hmakes : change.Makes now e) {h : Handle} (ha : h.access = .readWrite) :
    ∃ answer, Step.run now committed (.change change) h
      = (.ok answer, { h with books := e.apply h.books, written := true }) := by
  obtain ⟨answer, hon⟩ := hmakes h.books
  refine ⟨answer, ?_⟩
  unfold Step.run
  rw [Handle.update_of_ok (fun hr => absurd (ha.symm.trans hr) (by decide))
      (congrArg Prod.snd hon), hon]
  show (_, { h with books := e.apply h.books, written := h.written || true }) = _
  rw [Bool.or_true]
  rfl

/-- **A look answers what it answers on the handle from before the transaction.** -/
theorem runAll_woven {now : Int64} (committed : Handle) {edits : List Edit} {steps : List Step}
    (hw : Woven now edits steps) {h : Handle} (ha : edits ≠ [] → h.access = .readWrite) :
    ∃ answers, Step.runAll now (some committed) steps h = (answers, true, drafted edits h)
      ∧ ∀ (i : Nat) (step : Step), steps[i]? = some (.reader step) →
          answers[i]? = some (Step.run now none step committed.reader).1 := by
  induction hw generalizing h with
  | done => exact ⟨[], rfl, nofun⟩
  | @edit change e edits steps hmakes _ ih =>
    -- an edit goes into the draft; what is looked at is not the draft
    have hwritable := ha (List.cons_ne_nil e edits)
    obtain ⟨answer, hone⟩ := run_change (some committed) hmakes hwritable
    obtain ⟨answers, hrun, hlook⟩ :=
      ih (h := { h with books := e.apply h.books, written := true }) fun _ => hwritable
    refine ⟨.ok answer :: answers, ?_, ?_⟩
    · unfold Step.runAll
      rw [hone]
      simp only [hrun]
      rfl
    · intro i step hi
      cases i with
      | zero => exact nomatch hi
      | succ i => exact hlook i step hi
  | @look step edits steps _ ih =>
    obtain ⟨answers, hrun, hlook⟩ := ih ha
    refine ⟨(Step.run now none step committed.reader).1 :: answers, ?_, ?_⟩
    · unfold Step.runAll
      have hone : Step.run now (some committed) (.reader step) h
          = ((Step.run now none step committed.reader).1, h) := by
        rw [Step.run]
        rfl
      rw [hone]
      -- what fails on the second handle does not concern the transaction
      cases (Step.run now none step committed.reader).1 with
      | error error =>
        simp only [hrun]
        rfl
      | ok answer => simp only [hrun]
    · intro i other hi
      cases i with
      | zero =>
        obtain rfl : step = other := Step.reader.inj (Option.some.inj hi)
        rfl
      | succ i => exact hlook i other hi

/-! ## §2. A run of blocks. -/

namespace Engine

/-- The store that a run of blocks leaves is the one right behind the last block
that was booked, and its cursor names that block; if none was booked, it is the
one from before. -/
def LeavesLast (m : Market σ) (calls : List (Int64 × Batch)) (e : Engine σ) : Prop :=
  ((∀ processed ∈ (e.processAll m calls).1, ∃ error, processed.result = .error error)
    ∧ (e.processAll m calls).2.store = e.store) ∨
  ∃ before now batch after summary, calls = before ++ (now, batch) :: after
    ∧ ((e.processAll m before).2.process m now batch).1.result = .ok summary
    ∧ (∀ processed ∈
          (((e.processAll m before).2.process m now batch).2.processAll m after).1,
        ∃ error, processed.result = .error error)
    ∧ (e.processAll m calls).2.store = ((e.processAll m before).2.process m now batch).2.store
    ∧ (e.processAll m calls).2.lastProcessed = .ok (some ⟨batch.number, batch.hash, now⟩)

theorem leavesLast (m : Market σ) (calls : List (Int64 × Batch)) (e : Engine σ) :
    LeavesLast m calls e := by
  induction calls generalizing e with
  | nil => exact .inl ⟨nofun, rfl⟩
  | cons call calls ih =>
    obtain ⟨now, batch⟩ := call
    rcases ih (e.process m now batch).2 with
      ⟨hnone, hstore⟩ | ⟨before, now', batch', after, summary, hcalls, hok, hafter, hstore, hlast⟩
    · -- none of the later blocks was booked: this one decides
      cases hresult : (e.process m now batch).1.result with
      | error error =>
        refine .inl ⟨?_, hstore.trans (store_process_of_error hresult)⟩
        intro processed hmem
        rcases List.mem_cons.mp hmem with rfl | hmem
        · exact ⟨error, hresult⟩
        · exact hnone processed hmem
      | ok summary =>
        refine .inr ⟨[], now, batch, calls, summary, rfl, hresult, hnone, hstore, ?_⟩
        show ((e.process m now batch).2.processAll m calls).2.lastProcessed = _
        unfold lastProcessed
        rw [hstore]
        exact lastProcessed_process hresult
    · refine .inr ⟨(now, batch) :: before, now', batch', after, summary, ?_, hok, hafter, hstore,
        hlast⟩
      rw [hcalls]
      rfl

/-- While a block is being booked, a second handle sees the store from before. -/
theorem run_woven (m : Market σ) (now : Int64) (batch : Batch) (e : Engine σ)
    {steps : List Step} (hw : Woven now (e.edits m now batch).1 steps) :
    ∃ answers,
      Step.run now none (.transaction steps (!(e.edits m now batch).2)) e.store.handle
        = (.ok (.transaction answers (e.edits m now batch).2),
          (e.process m now batch).2.store.handle)
      ∧ ∀ (i : Nat) (step : Step), steps[i]? = some (.reader step) →
          answers[i]? = some (Step.run now none step e.store.handle.reader).1 := by
  have hwritable : (e.edits m now batch).1 ≠ [] → e.store.handle.access = .readWrite := by
    intro hne
    cases ha : e.store.handle.access with
    | readWrite => rfl
    | readOnly =>
      rw [edits_of_readOnly ha] at hne
      exact absurd rfl hne
  obtain ⟨answers, hrun, hlook⟩ := runAll_woven e.store.handle hw hwritable
  refine ⟨answers, ?_, hlook⟩
  rw [Step.run, hrun]
  rcases handle_process m now batch e with ⟨hcomplete, hsame⟩ | ⟨hcomplete, hedits, hafter⟩
  · rw [hcomplete, hsame]
    rfl
  · rw [hcomplete, hafter, drafted_of_ne_nil hedits]
    rfl

/-- **A block is booked as a whole or not at all, and nobody sees a part of it.** -/
theorem process_atomic (m : Market σ) (calls : List (Int64 × Batch)) (start : Engine σ)
    (now : Int64) (batch : Batch) :
    let e := (start.processAll m calls).2
    LeavesLast m calls start
    ∧ (∀ error, (e.process m now batch).1.result = .error error →
        (e.process m now batch).2.store = e.store)
    ∧ (∀ summary, (e.process m now batch).1.result = .ok summary →
        (e.process m now batch).2.lastProcessed = .ok (some ⟨batch.number, batch.hash, now⟩))
    ∧ ∀ steps, Woven now (e.edits m now batch).1 steps → ∃ answers,
        Step.run now none (.transaction steps (!(e.edits m now batch).2)) e.store.handle
          = (.ok (.transaction answers (e.edits m now batch).2),
            (e.process m now batch).2.store.handle)
        ∧ ∀ (i : Nat) (step : Step), steps[i]? = some (.reader step) →
            answers[i]? = some (Step.run now none step e.store.handle.reader).1 := by
  intro e
  exact ⟨leavesLast m calls start, fun _ => store_process_of_error,
    fun _ => lastProcessed_process, fun _ => run_woven m now batch e⟩

/-- An engine on books in which a wallet has an account that cannot be read. -/
def tornAccount : Engine Unit :=
  .new firstEngine.exchanges .default
    ⟨⟨.readWrite, Books.empty.putRaw .account (shortAddress 3).toList [], true⟩, false⟩ ()

/-- The exchange funds another wallet, and then that one. -/
def twoTransfers : Batch := ⟨.clamp 1, .zero, [
  ⟨.ofPrefix [1], shortAddress 1, some (shortAddress 2), oneEther, []⟩,
  ⟨.ofPrefix [2], shortAddress 1, some (shortAddress 3), oneEther, []⟩]⟩

/-- The first transfer is written and the second one fails.  A look in between finds the
accounts without the first, and so does whoever looks afterwards. -/
theorem process_atomic_torn :
    let credited : Account := (Account.new (shortAddress 2)).recordTransfer "X" oneEther
    let steps : List Step := [.change (.put .account credited), .reader (.query (.raw .account))]
    (tornAccount.edits evenMarket 0 twoTransfers).1 = [.set (Table.accounts.write credited)]
      ∧ (∃ error, (tornAccount.process evenMarket 0 twoTransfers).1.result = .error error)
      ∧ (tornAccount.process evenMarket 0 twoTransfers).2.store = tornAccount.store
      ∧ ∃ answers,
        Step.run 0 none (.transaction steps true) tornAccount.store.handle
          = (.ok (.transaction answers false), tornAccount.store.handle)
        ∧ answers[1]? = some (.ok (.rows [((shortAddress 3).toList, [])])) := by
  intro credited steps
  have hedits : tornAccount.edits evenMarket 0 twoTransfers
      = ([.set (Table.accounts.write credited)], false) := by decide +kernel
  have hwoven : Woven 0 (tornAccount.edits evenMarket 0 twoTransfers).1 steps := by
    rw [hedits]
    exact .edit (Change.put_makes 0 .account credited) (.look _ .done)
  obtain ⟨-, hfails, -, hlooks⟩ := process_atomic evenMarket [] tornAccount 0 twoTransfers
  have hfailed : ∃ error,
      (tornAccount.process evenMarket 0 twoTransfers).1.result = .error error := by
    have hnone : (tornAccount.process evenMarket 0 twoTransfers).1.result.toOption = none := by
      decide +kernel
    cases hresult : (tornAccount.process evenMarket 0 twoTransfers).1.result with
    | error error => exact ⟨error, rfl⟩
    | ok summary =>
      rw [hresult] at hnone
      exact nomatch hnone
  obtain ⟨error, hresult⟩ := hfailed
  have hstore := hfails error hresult
  obtain ⟨answers, hrun, hlook⟩ := hlooks steps hwoven
  refine ⟨congrArg Prod.fst hedits, ⟨error, hresult⟩, hstore, answers, ?_, hlook 1 _ rfl⟩
  change (tornAccount.process evenMarket 0 twoTransfers).2.store = tornAccount.store at hstore
  change Step.run 0 none (.transaction steps
    (!(tornAccount.edits evenMarket 0 twoTransfers).2)) tornAccount.store.handle
    = (.ok (.transaction answers (tornAccount.edits evenMarket 0 twoTransfers).2),
      (tornAccount.process evenMarket 0 twoTransfers).2.store.handle) at hrun
  rw [hedits, hstore] at hrun
  exact hrun

end Engine

end FundTrail
