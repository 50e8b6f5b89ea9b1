/-
  FundTrail.Proofs.Engine.Mirrored
  ────────────────────────────────
  **TWO MARKETS THAT ANSWER ALIKE MAKE ONE ENGINE.**

  An engine learns of a chain by asking it and in no other way.  So if two markets answer
  alike, in states that correspond, the two engines that ask them do the same with every
  block, remember the same and have the same store; and the states correspond again.

  Main facts: `alike_resolveAll`, `Engine.Mirrored.process` and
  `Engine.Mirrored.processAll`.
-/
import FundTrail.Proofs.Chain.Minutes
import FundTrail.Proofs.Engine.Commit

namespace FundTrail

open FundTrail.Store Asking

variable {σ τ : Type}

/-- The desks are the same, but for the chains, which correspond. -/
structure Desk.Mirrored (R : σ → τ → Prop) (d : Desk σ) (d' : Desk τ) : Prop where
  chain : R d.chain d'.chain
  factories : d.factories = d'.factories
  metadata : d.metadata = d'.metadata
  skips : d.skips = d'.skips

/-! ## §1. Resolutions. -/

namespace Market.Mirrors

variable {R : σ → τ → Prop} {m : Market σ} {m' : Market τ}

theorem alike_ask {ε α : Type} {x : Asking σ ε α} {y : Asking τ ε α} (h : x.Alike R y) :
    Alike (Desk.Mirrored R) (Desk.ask x) (Desk.ask y) := by
  intro d d' hd
  obtain ⟨hanswer, hchain⟩ := h _ _ hd.chain
  exact ⟨hanswer, hchain, hd.factories, hd.metadata, hd.skips⟩

variable (hm : Market.Mirrors R m m')

include hm

theorem alike_factoryOf (router : Address) :
    Alike (Desk.Mirrored R) (Desk.factoryOf m router) (Desk.factoryOf m' router) := by
  rintro ⟨chain, factories, metadata, skips⟩ ⟨chain', _, _, _⟩ ⟨hchain, rfl, rfl, rfl⟩
  unfold Desk.factoryOf
  cases factories.lookup router with
  | some factory =>
    -- what is at hand is at hand for both, and neither asks
    exact ⟨rfl, hchain, rfl, rfl, rfl⟩
  | none =>
    rcases (hm.factories router).cases hchain with
      ⟨e, v, w, hv, hw, hr⟩ | ⟨factory, v, w, hv, hw, hr⟩
    · simp only [hv, hw]
      exact ⟨trivial, hr, rfl, rfl, rfl⟩
    · simp only [hv, hw]
      exact ⟨trivial, hr, rfl, rfl, rfl⟩

theorem alike_metadataOf (books : Books) (token : Address) :
    Alike (Desk.Mirrored R) (Desk.metadataOf m books token)
      (Desk.metadataOf m' books token) := by
  rintro ⟨chain, factories, metadata, skips⟩ ⟨chain', _, _, _⟩ ⟨hchain, rfl, rfl, rfl⟩
  unfold Desk.metadataOf
  cases metadata.lookup token with
  | some known => exact ⟨rfl, hchain, rfl, rfl, rfl⟩
  | none =>
    cases books.find? .tokens token with
    | error e => exact ⟨rfl, hchain, rfl, rfl, rfl⟩
    | ok found =>
      cases found with
      | some row => exact ⟨rfl, hchain, rfl, rfl, rfl⟩
      | none =>
        rcases (hm.tokens token).cases hchain with
          ⟨e, v, w, hv, hw, hr⟩ | ⟨answer, v, w, hv, hw, hr⟩
        · simp only [hv, hw]
          exact ⟨trivial, hr, rfl, rfl, rfl⟩
        · simp only [hv, hw]
          exact ⟨rfl, hr, rfl, rfl, rfl⟩

theorem alike_metadataAlong (books : Books) (path : List Address) :
    Alike (Desk.Mirrored R) (Desk.metadataAlong m books path)
      (Desk.metadataAlong m' books path) := by
  induction path with
  | nil => exact .pure []
  | cons token path ih =>
    exact (hm.alike_metadataOf books token).bind fun answer => ih.bind fun answers => .pure _

theorem alike_reservesOfHops (factory : Address) (pairs : List (Address × Address)) :
    Alike R (reservesOfHops m factory pairs) (reservesOfHops m' factory pairs) := by
  induction pairs with
  | nil => exact .pure []
  | cons pair pairs ih =>
    exact ((hm.pools factory pair.1 pair.2).withError _).bind fun raw =>
      (Alike.ofExcept _).bind fun r => ih.bind fun rs => .pure _

theorem alike_pathPrice (factory : Address) (path : List Address) (decimals : UInt8)
    (fee : Option Fee) :
    Alike R (pathPrice m factory path decimals fee) (pathPrice m' factory path decimals fee) := by
  have hreserves : Alike R (reservesAlong m factory path) (reservesAlong m' factory path) := by
    unfold reservesAlong
    split
    next => exact .fail _
    next => exact hm.alike_reservesOfHops factory (hops path)
  unfold pathPrice
  cases Token.unit? decimals with
  | none => exact .fail _
  | some unit =>
    refine hreserves.bind fun rs => (Alike.ofExcept _).bind fun value => ?_
    cases fee with
    | none => exact .pure _
    | some fee => exact .ofExcept _

theorem alike_resolveSwap (fee : Option Fee) (books : Books) (tx : Transaction)
    (wallet router : Address) :
    Alike (Desk.Mirrored R) (resolveSwap m fee books tx wallet router)
      (resolveSwap m' fee books tx wallet router) := by
  unfold resolveSwap
  refine (Alike.ofExcept _).bind fun call => ?_
  refine ((hm.alike_factoryOf router).withError _).bind fun factory => ?_
  refine (hm.alike_metadataAlong books call.path).bind fun tokens => ?_
  cases tokens.getLast? with
  | none => exact .fail _
  | some last =>
    have hprice := alike_ask (hm.alike_pathPrice factory call.path last.2.decimals fee)
    exact (hprice.withError _).bind fun price => .pure _

theorem alike_resolve (exchanges : ExchangeSet) (settings : Settings) (books : Books)
    (funded : List Address) (tx : Transaction) :
    Alike (Desk.Mirrored R) (resolve m exchanges settings books funded tx)
      (resolve m' exchanges settings books funded tx) := by
  unfold resolve
  cases classOf exchanges settings books funded tx with
  | transfer exchange recipient value => exact .pure _
  | ignored reason => exact .pure _
  | swapCall wallet router method =>
    intro d d' hd
    simp only
    rcases (hm.alike_resolveSwap settings.fee books tx wallet router).cases hd with
      ⟨e, w, w', hw, hw', hsame⟩ | ⟨swap, w, w', hw, hw', hsame⟩
    · rw [hw, hw']
      cases e with
      | halt e => exact ⟨rfl, hsame⟩
      | skip reason =>
        refine ⟨rfl, hsame.chain, hsame.factories, hsame.metadata, ?_⟩
        show w.skips ++ [(tx.hash, reason)] = w'.skips ++ [(tx.hash, reason)]
        rw [hsame.skips]
    · rw [hw, hw']
      exact ⟨rfl, hsame⟩

/-- **The transactions of a block are resolved alike.** -/
theorem alike_resolveAll (exchanges : ExchangeSet) (settings : Settings) (books : Books)
    (funded : List Address) (txs : List Transaction) :
    Alike (Desk.Mirrored R) (resolveAll m exchanges settings books funded txs)
      (resolveAll m' exchanges settings books funded txs) := by
  induction txs generalizing funded with
  | nil => exact .pure []
  | cons tx txs ih =>
    exact (hm.alike_resolve exchanges settings books funded tx).bind fun r =>
      (ih (r.funded ++ funded)).bind fun rs => .pure _

end Market.Mirrors

/-! ## §2. Engines. -/

/-- The engines are the same, but for the chains, which correspond. -/
structure Engine.Mirrored (R : σ → τ → Prop) (e : Engine σ) (e' : Engine τ) : Prop where
  chain : R e.chain e'.chain
  exchanges : e.exchanges = e'.exchanges
  settings : e.settings = e'.settings
  store : e.store = e'.store
  factories : e.factories = e'.factories

namespace Engine.Mirrored

variable {R : σ → τ → Prop} {m : Market σ} {m' : Market τ}

/-- **Both do the same with a block.** -/
theorem process (hm : Market.Mirrors R m m') {e : Engine σ} {e' : Engine τ}
    (h : Mirrored R e e') (now : Int64) (batch : Batch) :
    (e.process m now batch).1 = (e'.process m' now batch).1
      ∧ Mirrored R (e.process m now batch).2 (e'.process m' now batch).2 := by
  obtain ⟨exchanges, settings, store, chain, factories⟩ := e
  obtain ⟨exchanges', settings', store', chain', factories'⟩ := e'
  obtain ⟨hchain, rfl, rfl, rfl, rfl⟩ := h
  -- the store is one and the same, so both can use it or neither can
  cases hpoisoned : store.poisoned with
  | true =>
    rw [process_of_poisoned (m := m) hpoisoned, process_of_poisoned (m := m') hpoisoned]
    exact ⟨rfl, hchain, rfl, rfl, rfl, rfl⟩
  | false =>
    have hdesks : Desk.Mirrored R ⟨chain, factories, [], []⟩ ⟨chain', factories, [], []⟩ :=
      ⟨hchain, rfl, rfl, rfl⟩
    rcases (hm.alike_resolveAll exchanges settings store.handle.books []
      batch.transactions).cases hdesks with
      ⟨error, desk, desk', hr, hr', hsame⟩ | ⟨rs, desk, desk', hr, hr', hsame⟩
    · rw [process_of_unresolved (m := m) hpoisoned hr,
        process_of_unresolved (m := m') hpoisoned hr']
      exact ⟨congrArg (Processed.mk _) hsame.skips, hsame.chain, rfl, rfl, rfl, hsame.factories⟩
    · rw [process_of_resolved (m := m) hpoisoned hr, process_of_resolved (m := m') hpoisoned hr']
      exact ⟨congrArg (Processed.mk _) hsame.skips, hsame.chain, rfl, rfl, rfl, hsame.factories⟩

/-- **And with one block after the other.** -/
theorem processAll (hm : Market.Mirrors R m m') {e : Engine σ} {e' : Engine τ}
    (h : Mirrored R e e') (calls : List (Int64 × Batch)) :
    (e.processAll m calls).1 = (e'.processAll m' calls).1
      ∧ Mirrored R (e.processAll m calls).2 (e'.processAll m' calls).2 := by
  induction calls generalizing e e' with
  | nil => exact ⟨rfl, h⟩
  | cons call calls ih =>
    obtain ⟨hfirst, hnext⟩ := h.process hm call.1 call.2
    obtain ⟨hrest, hlast⟩ := ih hnext
    refine ⟨?_, hlast⟩
    exact congrArg₂ List.cons hfirst hrest

end Engine.Mirrored

end FundTrail
