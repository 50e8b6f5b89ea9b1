/-
  FundTrail.Proofs.Engine.Lookups
  ───────────────────────────────
  **NOTHING IS ASKED TWICE THAT HAS BEEN ANSWERED, AND NO RESERVES ARE KEPT.**

  The minutes of a run are told block by block, and in a block transaction by
  transaction.  Only swap calls whose data can be read cause questions, those of
  `Inquiry`.  What is asked of routers depends on all that was asked before, what is asked
  of tokens on the rows of the books in front of the block and on what was asked in it,
  and pools are asked anew for every swap.

  `exists_pages_resolveAll` goes through one block.  `Engine.KnowsFactories` is what carries it from
  block to block: the factories that an engine knows are those of its minutes.

  Main fact: `lookups_economical_and_fresh`.
-/
import FundTrail.Proofs.Engine.AtHand
import FundTrail.Proofs.Engine.Mirrored

namespace FundTrail

open FundTrail.Store

variable {σ : Type}

/-! ## §1. The minutes of a block. -/

/-- The minutes of one transaction, and what it is resolved to.  A swap is made of what has
been said, and the block is only given up for a token whose row cannot be read. -/
inductive Page (exchanges : ExchangeSet) (settings : Settings) (books : Books)
    (before : List Consultation) (funded : List Address) (today : List Consultation)
    (tx : Transaction) : List Consultation → Except StoreError Resolution → Prop where
  /-- A swap call whose data can be read. -/
  | call {wallet router : Address} {method : SwapMethod} {call : SwapCall}
      {toRouter toTokens toPools : List Consultation} {outcome : Except StoreError Resolution} :
      classOf exchanges settings books funded tx = .swapCall wallet router method →
      SwapCall.decode tx.input tx.value = .ok call →
      Inquiry books before today router call.path toRouter toTokens toPools →
      (∀ swap, outcome = .ok (.swap swap) →
        Informed books before today router settings.fee call toRouter toTokens toPools swap) →
      (∀ e, outcome = .error e → ∃ token ∈ call.path, books.find? .tokens token = .error e) →
      Page exchanges settings books before funded today tx
        (toRouter ++ toTokens ++ toPools) outcome
  /-- Any other transaction, for which nothing is asked. -/
  | silent {r : Resolution} :
      (∀ wallet router method call,
        classOf exchanges settings books funded tx = .swapCall wallet router method →
        SwapCall.decode tx.input tx.value ≠ .ok call) →
      (∀ swap, r ≠ .swap swap) →
      Page exchanges settings books before funded today tx [] (.ok r)

/-- The minutes of the transactions of a block, page by page, and what they are resolved
to. -/
inductive Pages (exchanges : ExchangeSet) (settings : Settings) (books : Books)
    (before : List Consultation) : List Address → List Consultation → List Transaction →
    List (List Consultation) → Except StoreError (List Resolution) → Prop where
  | nil {funded today} : Pages exchanges settings books before funded today [] [] (.ok [])
  /-- Behind a transaction come the others, told whom it has funded. -/
  | cons {funded today tx txs page pages outcome} {r : Resolution} :
      Page exchanges settings books before funded today tx page (.ok r) →
      Pages exchanges settings books before (r.funded ++ funded) (today ++ page) txs pages
        outcome →
      Pages exchanges settings books before funded today (tx :: txs) (page :: pages)
        (outcome.map (r :: ·))
  /-- Behind one for which the block is given up comes nothing. -/
  | halt {funded today tx txs page e} :
      Page exchanges settings books before funded today tx page (.error e) →
      Pages exchanges settings books before funded today (tx :: txs) [page] (.error e)

section

variable (m : Market σ) (exchanges : ExchangeSet) (settings : Settings) {books : Books}
  {before today : List Consultation} {d : Desk (σ × List Consultation)}

/-- That a swap is skipped is noted, but not in the minutes. -/
theorem Desk.AsMinuted.skip (hd : d.AsMinuted books before today)
    (skips : List (Hash × SkipReason)) :
    Desk.AsMinuted books before today { d with skips } :=
  ⟨hd.log, hd.factories, hd.known, hd.told⟩

/-- **What is asked for one transaction.** -/
theorem exists_page_resolve (hd : d.AsMinuted books before today) (funded : List Address)
    (tx : Transaction) :
    ∃ page, (resolve m.minuted exchanges settings books funded tx d).2.AsMinuted books before
        (today ++ page)
      ∧ Page exchanges settings books before funded today tx page
        (resolve m.minuted exchanges settings books funded tx d).1 := by
  have hnothing : d.AsMinuted books before (today ++ []) := by
    rw [List.append_nil]
    exact hd
  unfold resolve
  cases hclass : classOf exchanges settings books funded tx with
  | transfer exchange recipient value =>
    refine ⟨[], hnothing, .silent (fun wallet router method call h => ?_) nofun⟩
    exact nomatch hclass.symm.trans h
  | ignored reason =>
    refine ⟨[], hnothing, .silent (fun wallet router method call h => ?_) nofun⟩
    exact nomatch hclass.symm.trans h
  | swapCall wallet router method =>
    simp only
    cases hcall : SwapCall.decode tx.input tx.value with
    | error fault =>
      -- whoever cannot read the call does not ask
      have hrun : resolveSwap m.minuted settings.fee books tx wallet router d
          = (.error (.skip (.undecodable fault)), d) :=
        Asking.bind_run_error (by rw [hcall]; rfl)
      rw [hrun]
      refine ⟨[], hnothing.skip _, .silent (fun _ _ _ call _ h => ?_) nofun⟩
      exact nomatch hcall.symm.trans h
    | ok call =>
      obtain ⟨toRouter, toTokens, toPools, hd', hasked, hswap, hhalt⟩ :=
        exists_pages_resolveSwap (m := m) hd settings.fee hcall wallet router
      rcases hrun : resolveSwap m.minuted settings.fee books tx wallet router d
        with ⟨(reason | e) | swap, d'⟩
      · rw [hrun] at hd'
        exact ⟨_, hd'.skip _, .call hclass hcall hasked nofun nofun⟩
      · rw [hrun] at hd' hhalt
        refine ⟨_, hd', .call hclass hcall hasked nofun fun e' he' => ?_⟩
        obtain rfl := Except.error.inj he'
        exact hhalt e rfl
      · rw [hrun] at hd' hswap
        refine ⟨_, hd', .call hclass hcall hasked (fun swap' hswap' => ?_) nofun⟩
        obtain rfl := Resolution.swap.inj (Except.ok.inj hswap')
        exact hswap swap rfl

/-- **What is asked for the transactions of a block.** -/
theorem exists_pages_resolveAll (hd : d.AsMinuted books before today) (funded : List Address)
    (txs : List Transaction) :
    ∃ pages, (resolveAll m.minuted exchanges settings books funded txs d).2.AsMinuted books before
        (today ++ pages.flatten)
      ∧ Pages exchanges settings books before funded today txs pages
        (resolveAll m.minuted exchanges settings books funded txs d).1 := by
  -- the pages so far are part of what stands in front of the next one
  induction txs generalizing funded today d with
  | nil =>
    refine ⟨[], ?_, .nil⟩
    rw [List.flatten_nil, List.append_nil]
    exact hd
  | cons tx txs ih =>
    obtain ⟨page, hd₁, hpage⟩ := exists_page_resolve m exchanges settings hd funded tx
    rcases hr : resolve m.minuted exchanges settings books funded tx d with ⟨e | r, d₁⟩
    · -- the block is given up, and this page is its last
      rw [hr] at hd₁ hpage
      have hrun : resolveAll m.minuted exchanges settings books funded (tx :: txs) d
          = (.error e, d₁) := Asking.bind_run_error hr
      rw [hrun]
      refine ⟨[page], ?_, .halt hpage⟩
      rw [List.flatten_singleton]
      exact hd₁
    · rw [hr] at hd₁ hpage
      obtain ⟨pages, hd₂, hpages⟩ := ih hd₁ (r.funded ++ funded)
      have hrun : resolveAll m.minuted exchanges settings books funded (tx :: txs) d
          = (resolveAll m.minuted exchanges settings books (r.funded ++ funded) txs >>=
            fun rs => pure (r :: rs)) d₁ := Asking.bind_run_ok hr
      have hflat : today ++ page ++ pages.flatten = today ++ (page :: pages).flatten := by
        rw [List.flatten_cons, List.append_assoc]
      rw [hflat] at hd₂
      -- what is asked for the others does not depend on whether one of them gives it up
      rcases hrest : resolveAll m.minuted exchanges settings books (r.funded ++ funded) txs d₁
        with ⟨e | rs, d₂⟩
      · rw [hrest] at hd₂ hpages
        rw [hrun, Asking.bind_run_error hrest]
        exact ⟨page :: pages, hd₂, .cons hpage hpages⟩
      · rw [hrest] at hd₂ hpages
        rw [hrun, Asking.bind_run_ok hrest]
        exact ⟨page :: pages, hd₂, .cons hpage hpages⟩

end

/-! ## §2. Nobody is asked twice who has answered. -/

section

variable {exchanges : ExchangeSet} {settings : Settings} {books : Books}
  {before today : List Consultation} {funded : List Address}

theorem Page.silent_throughout {tx : Transaction} {page : List Consultation}
    {outcome : Except StoreError Resolution}
    (h : Page exchanges settings books before funded today tx page outcome) :
    Throughout RouterSilent (before ++ today) page
      ∧ Throughout (TokenSilent books) today page := by
  cases h with
  | call _ _ hasked _ _ => exact ⟨hasked.routerSilent, hasked.tokenSilent⟩
  | silent _ _ => exact ⟨.nil, .nil⟩

/-- **In a block nobody is asked who has answered.** -/
theorem Pages.silent_throughout {txs : List Transaction} {pages : List (List Consultation)}
    {outcome : Except StoreError (List Resolution)}
    (h : Pages exchanges settings books before funded today txs pages outcome) :
    Throughout RouterSilent (before ++ today) pages.flatten
      ∧ Throughout (TokenSilent books) today pages.flatten := by
  induction h with
  | nil => exact ⟨.nil, .nil⟩
  | cons hpage _ ih =>
    obtain ⟨hrouters, htokens⟩ := hpage.silent_throughout
    obtain ⟨hrouters', htokens'⟩ := ih
    rw [← List.append_assoc] at hrouters'
    rw [List.flatten_cons]
    exact ⟨hrouters.append hrouters', htokens.append htokens'⟩
  | halt hpage =>
    rw [List.flatten_singleton]
    exact hpage.silent_throughout

end

/-! ## §3. From block to block. -/

namespace Engine

/-- The factories that the engine knows are those that its minutes tell. -/
def KnowsFactories (e : Engine (σ × List Consultation)) : Prop :=
  ∀ router, e.factories.lookup router = factoryIn e.chain.2 router

/-- What the desk has learnt of the chain is taken over, whatever is booked. -/
theorem chain_process_of_open {m : Market σ} {e : Engine σ} (hopen : e.store.poisoned = false)
    (now : Int64) (batch : Batch) :
    let desk := (resolveAll m e.exchanges e.settings e.store.handle.books [] batch.transactions
      ⟨e.chain, e.factories, [], []⟩).2
    (e.process m now batch).2.chain = desk.chain
      ∧ (e.process m now batch).2.factories = desk.factories := by
  intro desk
  rcases hr : resolveAll m e.exchanges e.settings e.store.handle.books [] batch.transactions
    ⟨e.chain, e.factories, [], []⟩ with ⟨error | rs, d⟩
  · obtain rfl : desk = d := congrArg Prod.snd hr
    rw [process_of_unresolved hopen hr]
    exact ⟨rfl, rfl⟩
  · obtain rfl : desk = d := congrArg Prod.snd hr
    rw [process_of_resolved hopen hr]
    exact ⟨rfl, rfl⟩

/-- **One block adds its pages to the minutes,** and the engine knows what they tell.  A
store that cannot be used ends the block before anything is asked. -/
theorem KnowsFactories.process {m : Market σ} {e : Engine (σ × List Consultation)}
    (he : e.KnowsFactories) (now : Int64) (batch : Batch) :
    let e' := (e.process m.minuted now batch).2
    e'.KnowsFactories
      ∧ (e.store.poisoned = true → e'.chain.2 = e.chain.2)
      ∧ (e.store.poisoned = false → ∃ pages, e'.chain.2 = e.chain.2 ++ pages.flatten
        ∧ Pages e.exchanges e.settings e.store.handle.books e.chain.2 [] [] batch.transactions pages
          (resolveAll m.minuted e.exchanges e.settings e.store.handle.books []
            batch.transactions ⟨e.chain, e.factories, [], []⟩).1) := by
  intro e'
  cases hstore : e.store.poisoned with
  | true =>
    have hsame : e' = e := congrArg Prod.snd (process_of_poisoned (m := m.minuted) hstore)
    rw [hsame]
    exact ⟨he, fun _ => rfl, nofun⟩
  | false =>
    -- at the beginning of a block nothing has been said in it
    have hdesk : Desk.AsMinuted e.store.handle.books e.chain.2 []
        ⟨e.chain, e.factories, [], []⟩ := by
      refine ⟨?_, fun router => ?_, nofun, fun _ _ => rfl⟩
      · rw [List.append_nil]
      · rw [List.append_nil]
        exact he router
    obtain ⟨pages, hkept, hpages⟩ :=
      exists_pages_resolveAll m e.exchanges e.settings hdesk [] batch.transactions
    obtain ⟨hchain, hfactories⟩ := chain_process_of_open (m := m.minuted) hstore now batch
    have hlog : e'.chain.2 = e.chain.2 ++ pages.flatten := by
      rw [hchain, hkept.log, List.nil_append]
    refine ⟨fun router => ?_, nofun, fun _ => ⟨pages, hlog, hpages⟩⟩
    rw [hfactories, hkept.factories, hlog, List.nil_append]

/-- **And so does one block after the other.**  No router is asked again that has named a
factory. -/
theorem KnowsFactories.processAll {m : Market σ} {e : Engine (σ × List Consultation)}
    (he : e.KnowsFactories) (hsilent : Throughout RouterSilent [] e.chain.2) (calls : List (Int64 × Batch)) :
    (e.processAll m.minuted calls).2.KnowsFactories
      ∧ Throughout RouterSilent [] (e.processAll m.minuted calls).2.chain.2 := by
  induction calls generalizing e with
  | nil => exact ⟨he, hsilent⟩
  | cons call calls ih =>
    obtain ⟨hkept, hpoisoned, hopen⟩ := he.process (m := m) call.1 call.2
    have hsilent' : Throughout RouterSilent [] (e.process m.minuted call.1 call.2).2.chain.2 := by
      cases hstore : e.store.poisoned with
      | true =>
        rw [hpoisoned hstore]
        exact hsilent
      | false =>
        obtain ⟨pages, hlog, hpages⟩ := hopen hstore
        obtain ⟨hrouters, -⟩ := hpages.silent_throughout
        rw [List.append_nil] at hrouters
        rw [hlog]
        exact hsilent.append hrouters
    exact ih hkept hsilent'

theorem snd_processAll_take_succ (m : Market σ) (calls : List (Int64 × Batch)) (e : Engine σ)
    {n : Nat} (hn : n < calls.length) :
    (e.processAll m (calls.take (n + 1))).2
      = ((e.processAll m (calls.take n)).2.process m calls[n].1 calls[n].2).2 := by
  induction calls generalizing e n with
  | nil => exact absurd hn (Nat.not_lt_zero n)
  | cons call calls ih =>
    cases n with
    | zero => rfl
    | succ n => exact ih (e.process m call.1 call.2).2 (Nat.lt_of_succ_lt_succ hn)

/-- The engine, when its minutes are opened. -/
def minuted (e : Engine σ) : Engine (σ × List Consultation) :=
  ⟨e.exchanges, e.settings, e.store, (e.chain, []), e.factories⟩

/-- What is asked, and said, while blocks are worked off. -/
def minutes (m : Market σ) (calls : List (Int64 × Batch)) (e : Engine σ) : List Consultation :=
  (e.minuted.processAll m.minuted calls).2.chain.2

end Engine

/-- **Lookups are economical and fresh.**  Whatever the chain answers, and however its
answers change, a run of blocks leaves minutes that a market which records its questions
bears out.  No router in them is asked again once it has named a factory.  A block adds
nothing to them if the store cannot be used, and else a page for each transaction up to
one for which it is given up: no page but for swap calls whose data can be read, and for
these the questions of `Inquiry`.  No token is asked that had a row before the block, nor
again once it has spoken in the block.  What the transactions are resolved to is made of
the factory that a router has named first, of rows or what tokens have said in this block,
and of reserves that have just been asked for. -/
theorem lookups_economical_and_fresh (m : Market σ) (exchanges : ExchangeSet)
    (settings : Settings) (store : Shared) (s : σ) (calls : List (Int64 × Batch)) :
    let start := Engine.new exchanges settings store s
    let minutes := fun n => start.minutes m (calls.take n)
    let logged := (Engine.new exchanges settings store (s, [])).processAll m.recorded calls
    logged.1 = (start.processAll m calls).1
    ∧ logged.2.chain = ((start.processAll m calls).2.chain,
        (start.minutes m calls).map Consultation.question)
    ∧ Throughout RouterSilent [] (start.minutes m calls)
    ∧ ∀ n, (hn : n < calls.length) →
      let e := (start.processAll m (calls.take n)).2
      let books := e.store.handle.books
      let txs := calls[n].2.transactions
      (e.store.poisoned = true → minutes (n + 1) = minutes n)
      ∧ (e.store.poisoned = false → ∃ pages, minutes (n + 1) = minutes n ++ pages.flatten
        ∧ Throughout (TokenSilent books) [] pages.flatten
        ∧ Pages e.exchanges e.settings books (minutes n) [] [] txs pages
          (resolveAll m e.exchanges e.settings books [] txs ⟨e.chain, e.factories, [], []⟩).1) := by
  intro start minutes logged
  have hkept : start.minuted.KnowsFactories := fun _ => rfl
  have hmirrored : Engine.Mirrored (fun s (v : σ × List Consultation) => s = v.1) start
      start.minuted := ⟨rfl, rfl, rfl, rfl, rfl⟩
  have hrecorded : Engine.Mirrored (fun w v => w = (v.1, v.2.map Consultation.question))
      (.new exchanges settings store (s, [])) start.minuted := ⟨rfl, rfl, rfl, rfl, rfl⟩
  -- three runs side by side: the one in question, with a record, and with minutes
  obtain ⟨hsame, hlast⟩ := hmirrored.processAll (mirrors_minuted m) calls
  obtain ⟨hsame', hlast'⟩ := hrecorded.processAll (recorded_mirrors_minuted m) calls
  obtain ⟨-, hrouters⟩ := hkept.processAll (m := m) .nil calls
  refine ⟨hsame'.trans hsame.symm, ?_, hrouters, fun n hn => ?_⟩
  · show logged.2.chain = _
    rw [hlast'.chain, hlast.chain]
    rfl
  intro e books txs
  -- the engine with minutes, in front of the block
  obtain ⟨-, hthere⟩ := hmirrored.processAll (mirrors_minuted m) (calls.take n)
  obtain ⟨hkept', -⟩ := hkept.processAll (m := m) .nil (calls.take n)
  generalize hv : (start.minuted.processAll m.minuted (calls.take n)).2 = v at hthere hkept'
  obtain ⟨-, hpoisoned, hopen⟩ := hkept'.process (m := m) calls[n].1 calls[n].2
  have hminutes : minutes n = v.chain.2 := congrArg (fun v => v.chain.2) hv
  have hminutes' : minutes (n + 1)
      = (v.process m.minuted calls[n].1 calls[n].2).2.chain.2 := by
    show (start.minuted.processAll m.minuted (calls.take (n + 1))).2.chain.2 = _
    rw [Engine.snd_processAll_take_succ m.minuted calls start.minuted hn, hv]
  have hbooks : v.store.handle.books = books := by rw [← hthere.store]
  refine ⟨fun hstore => ?_, fun hstore => ?_⟩
  · rw [hminutes, hminutes', hpoisoned (hthere.store ▸ hstore)]
  · obtain ⟨pages, hlog, hpages⟩ := hopen (hthere.store ▸ hstore)
    rw [← hthere.exchanges, ← hthere.settings, hbooks] at hpages
    have hdesks : Desk.Mirrored (fun s v => s = v.1) ⟨e.chain, e.factories, [], []⟩
        ⟨v.chain, v.factories, [], []⟩ := ⟨hthere.chain, hthere.factories, rfl, rfl⟩
    obtain ⟨houtcome, -⟩ := (mirrors_minuted m).alike_resolveAll e.exchanges e.settings books []
      txs _ _ hdesks
    refine ⟨pages, ?_, hpages.silent_throughout.2, ?_⟩
    · rw [hminutes, hminutes', hlog]
    · rw [houtcome, hminutes]
      exact hpages

/-- Gives no answer to the first question, and none to the fourth. -/
def coyMarket : Market Nat where
  factoryOf _ asked :=
    (if asked = 0 then .error (.provider "busy") else .ok (shortAddress 9), asked + 1)
  metadataOf _ asked :=
    (if asked = 3 then .error (.contract "revert") else .ok ⟨"T", 18⟩, asked + 1)
  reservesOf _ _ _ asked := (.ok ⟨.clamp 1, .clamp 1⟩, asked + 1)

/-- The same store as that of `firstEngine`, on a chain that is coy. -/
def coyEngine : Engine Nat :=
  .new firstEngine.exchanges .default ⟨.new, false⟩ 0

/-- An exchange funds a wallet, which tries to swap three times; and in another block it
swaps along a longer path. -/
def threeAttempts : List (Int64 × Batch) :=
  let swap (id : UInt8) (path : List Address) : Transaction :=
    ⟨.ofPrefix [id], shortAddress 2, some (shortAddress 3), oneEther, swapInput path⟩
  [(0, ⟨.clamp 1, .zero, roundTrip.transactions.take 1 ++
      [swap 2 [shortAddress 4, shortAddress 5], swap 3 [shortAddress 4, shortAddress 5],
        swap 4 [shortAddress 4, shortAddress 5]]⟩),
    (1, ⟨.clamp 2, .zero, [swap 5 [shortAddress 4, shortAddress 5, shortAddress 6]]⟩)]

/-- The router is asked until it answers, and so is token 5.  The other block finds rows
of both tokens, and asks for the reserves of their pool once more. -/
theorem lookups_economical_and_fresh_coy :
    (coyEngine.minutes coyMarket threeAttempts).map Consultation.question
        = [.factory (shortAddress 3), .factory (shortAddress 3), .metadata (shortAddress 4),
          .metadata (shortAddress 5), .metadata (shortAddress 5),
          .reserves (shortAddress 9) (shortAddress 4) (shortAddress 5),
          .metadata (shortAddress 6),
          .reserves (shortAddress 9) (shortAddress 4) (shortAddress 5),
          .reserves (shortAddress 9) (shortAddress 5) (shortAddress 6)]
      ∧ Throughout RouterSilent [] (coyEngine.minutes coyMarket threeAttempts)
      ∧ ∃ pages : List (List Consultation), coyEngine.minutes coyMarket (threeAttempts.take 2)
          = coyEngine.minutes coyMarket (threeAttempts.take 1) ++ pages.flatten
        ∧ Throughout (TokenSilent
          (coyEngine.processAll coyMarket (threeAttempts.take 1)).2.store.handle.books) []
            pages.flatten := by
  have hasked : (coyEngine.minutes coyMarket threeAttempts).map Consultation.question
      = [.factory (shortAddress 3), .factory (shortAddress 3), .metadata (shortAddress 4),
        .metadata (shortAddress 5), .metadata (shortAddress 5),
        .reserves (shortAddress 9) (shortAddress 4) (shortAddress 5),
        .metadata (shortAddress 6),
        .reserves (shortAddress 9) (shortAddress 4) (shortAddress 5),
        .reserves (shortAddress 9) (shortAddress 5) (shortAddress 6)] := by
    decide +kernel
  have hstore :
      (coyEngine.processAll coyMarket (threeAttempts.take 1)).2.store.poisoned = false := by
    decide +kernel
  have hrun := lookups_economical_and_fresh coyMarket firstEngine.exchanges .default
    ⟨.new, false⟩ 0 threeAttempts
  have hstart : coyEngine = .new firstEngine.exchanges .default ⟨.new, false⟩ 0 := rfl
  rw [← hstart] at hrun
  obtain ⟨-, -, hrouters, hblocks⟩ := hrun
  obtain ⟨pages, hlog, htokens, -⟩ := (hblocks 1 (by decide)).2 hstore
  exact ⟨hasked, hrouters, pages, hlog, htokens⟩

end FundTrail
