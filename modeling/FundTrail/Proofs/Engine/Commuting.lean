/-
  FundTrail.Proofs.Engine.Commuting
  ─────────────────────────────────
  **TRANSACTIONS THAT HAVE NOTHING TO DO WITH EACH OTHER.**

  Two neighbours in a block may change places if neither funds the wallet that has sent
  the other, and if they are not swaps into one token or under one hash.  On a chain that
  always answers the same they are resolved as before: what is remembered of routers and
  of tokens is what the chain or the books would say anyway, and whether a wallet is
  followed does not depend on the other transaction.  And their resolutions may be booked
  in any order (`bookAll_interchange`).

  Transfers out of exchanges have nothing to do with each other in this sense, so a
  block of them may be in any order whatever.

  Main fact: `independent_transactions_commute`.
-/
import FundTrail.Proofs.Engine.Interchange
import FundTrail.Proofs.Engine.Quotation
import FundTrail.Proofs.Engine.Split

namespace FundTrail

open FundTrail.Store

variable {σ : Type}

/-! ## §1. Independent transactions. -/

section

variable (exchanges : ExchangeSet) (minTransfer : Amount)

/-- The call that a transaction makes, if it is a swap call for enough. -/
def Transaction.swapCall? (tx : Transaction) : Option SwapCall :=
  match judge exchanges minTransfer tx with
  | .swapIfTracked _ _ _ => (SwapCall.decode tx.input tx.value).toOption
  | .settled _ => none

/-- An exchange funds somebody by the transaction. -/
def Transaction.Funds (tx : Transaction) : Prop :=
  ∃ wallet exchange, tx.funder? exchanges minTransfer wallet = some exchange

/-- Neither transaction funds the wallet that has sent the other, and as swap calls they
have different hashes and buy different tokens. -/
structure Independent (t₁ t₂ : Transaction) : Prop where
  unfunded : t₁.funder? exchanges minTransfer t₂.sender = none
  unfunding : t₂.funder? exchanges minTransfer t₁.sender = none
  swaps : ∀ c₁ c₂, t₁.swapCall? exchanges minTransfer = some c₁ →
    t₂.swapCall? exchanges minTransfer = some c₂ →
    t₁.hash ≠ t₂.hash ∧ c₁.tokenOut ≠ c₂.tokenOut

end

section

variable {exchanges : ExchangeSet} {minTransfer : Amount} {t₁ t₂ : Transaction}

/-- Nobody funds the wallet of an exchange. -/
theorem Transaction.Funds.unfunded (h : t₂.Funds exchanges minTransfer) :
    t₁.funder? exchanges minTransfer t₂.sender = none := by
  obtain ⟨wallet, exchange, hfunds⟩ := h
  have hname := (Transaction.funder?_eq_some_iff.mp hfunds).2.2.2
  cases hfunder : t₁.funder? exchanges minTransfer t₂.sender with
  | none => rfl
  | some other =>
    have houtside := (Transaction.funder?_eq_some_iff.mp hfunder).2.2.1
    unfold ExchangeSet.contains at houtside
    rw [hname] at houtside
    exact nomatch houtside

/-- Who funds does not swap. -/
theorem Transaction.Funds.swapCall?_eq_none (h : t₁.Funds exchanges minTransfer) :
    t₁.swapCall? exchanges minTransfer = none := by
  obtain ⟨wallet, exchange, hfunds⟩ := h
  unfold swapCall?
  rcases judge_cases exchanges minTransfer t₁ with ⟨_, _, hj, -⟩ | ⟨-, hnobody⟩
  · rw [hj]
  · exact nomatch hfunds.symm.trans (hnobody wallet)

theorem Independent.of_funds (h₁ : t₁.Funds exchanges minTransfer)
    (h₂ : t₂.Funds exchanges minTransfer) : Independent exchanges minTransfer t₁ t₂ where
  unfunded := h₂.unfunded
  unfunding := h₁.unfunded
  swaps _ _ hcall := nomatch h₁.swapCall?_eq_none.symm.trans hcall

end

/-! ## §2. What a transaction comes to on a steady chain. -/

/-- Everything that is certain of the resolution of a transaction, whatever has been in
the block before it. -/
structure Resolution.Told (exchanges : ExchangeSet) (minTransfer : Amount) (a : Answers)
    (b : Books) (tx : Transaction) (r : Resolution) : Prop where
  funder : ∀ wallet, tx.funder? exchanges minTransfer wallet = r.funder? wallet
  of : ∀ s, r = .swap s → s.Of tx
  call : ∀ s, r = .swap s → tx.swapCall? exchanges minTransfer = some s.call
  said : ∀ s, r = .swap s → ∀ p ∈ s.tokens, a.said b p.1 = .ok p.2

/-- What independent transactions come to does not meddle with each other. -/
theorem Independent.apart {exchanges : ExchangeSet} {minTransfer : Amount} {a : Answers}
    {b : Books} {t₁ t₂ : Transaction} (h : Independent exchanges minTransfer t₁ t₂)
    {r₁ r₂ : Resolution} (h₁ : r₁.Told exchanges minTransfer a b t₁)
    (h₂ : r₂.Told exchanges minTransfer a b t₂) : r₁.Apart r₂ where
  unfunded s hs := by
    rw [← h₁.funder, (h₂.of s hs).wallet]
    exact h.unfunded
  unfunding s hs := by
    rw [← h₂.funder, (h₁.of s hs).wallet]
    exact h.unfunding
  hashes s₁ s₂ hs₁ hs₂ := by
    rw [(h₁.of s₁ hs₁).txHash, (h₂.of s₂ hs₂).txHash]
    exact (h.swaps s₁.call s₂.call (h₁.call s₁ hs₁) (h₂.call s₂ hs₂)).1
  bought s₁ s₂ hs₁ hs₂ := (h.swaps s₁.call s₂.call (h₁.call s₁ hs₁) (h₂.call s₂ hs₂)).2
  told s₁ s₂ hs₁ hs₂ p hp q hq hpq := by
    have hsame := (h₁.said s₁ hs₁ p hp).symm.trans
      ((congrArg (a.said b) hpq).trans (h₂.said s₂ hs₂ q hq))
    exact Prod.ext hpq (Except.ok.inj hsame)

section

open Asking

/-- The call of a swap is the one in the input of its transaction. -/
theorem gives_call_resolveSwap (m : Market σ) (fee : Option Fee) (books : Books)
    (tx : Transaction) (wallet router : Address) :
    Obeys (fun _ => True) (Gives fun s => SwapCall.decode tx.input tx.value = .ok s.call)
      (resolveSwap m fee books tx wallet router) := by
  have hcall : Gives (fun call => SwapCall.decode tx.input tx.value = .ok call)
      ((SwapCall.decode tx.input tx.value).mapError fun e => Setback.skip (.undecodable e)) := by
    cases SwapCall.decode tx.input tx.value with
    | error e => trivial
    | ok call => exact rfl
  unfold resolveSwap
  refine (Obeys.ofExcept hcall).bind_gives fun call hdecode => ?_
  refine (obeys_anything _).bind (fun factory _ => ?_) fun _ _ => trivial
  refine (obeys_anything _).bind (fun tokens _ => ?_) fun _ _ => trivial
  cases tokens.getLast? with
  | none => exact .fail trivial
  | some last => exact (obeys_anything _).bind (fun price _ => .pure hdecode) fun _ _ => trivial

theorem gives_call_resolve (m : Market σ) (exchanges : ExchangeSet) (settings : Settings)
    (books : Books) (funded : List Address) (tx : Transaction) :
    Obeys (fun _ => True)
      (Gives fun r => ∀ s, r = .swap s →
        tx.swapCall? exchanges settings.minTransfer = some s.call)
      (resolve m exchanges settings books funded tx) := by
  unfold resolve
  split
  next => exact .pure fun _ hs => nomatch hs
  next => exact .pure fun _ hs => nomatch hs
  next wallet router method hclass =>
    intro d _
    refine ⟨?_, trivial⟩
    have hswap := (gives_call_resolveSwap m settings.fee books tx wallet router d trivial).1
    simp only
    split
    next swap d' hs =>
      rw [hs] at hswap
      intro s hsame
      obtain rfl := Resolution.swap.inj hsame
      unfold Transaction.swapCall?
      rw [judge_of_swapCall hclass]
      simp only
      rw [show SwapCall.decode tx.input tx.value = .ok swap.call from hswap]
      rfl
    next => exact fun _ hs => nomatch hs
    next => trivial

variable {m : Market σ} {a : Answers} (hm : m.Steady a) (hshort : m.Short) {b : Books}
  (hb : b.Readable) {d : Desk σ} (hfits : d.Fits a b) (hd : d.Short)
  (exchanges : ExchangeSet) (settings : Settings)

include hm hshort hb hfits hd

/-- **A transaction always comes to the same**, as far as the block has not funded its
sender. -/
theorem exists_told (funded : List Address) (tx : Transaction) :
    ∃ r, r.Told exchanges settings.minTransfer a b tx ∧ ∀ funded',
      isFollowed b funded' tx.sender = isFollowed b funded tx.sender →
      Obeys (Desk.Fits a b) (· = .ok r) (resolve m exchanges settings b funded' tx) := by
  have hself : isFollowed b funded tx.sender = isFollowed b funded tx.sender := rfl
  obtain ⟨_, ⟨r, rfl, hplan⟩, hr, -⟩ :=
    agree_resolve hm hb hb (fun _ => rfl) exchanges settings tx hself
  -- what is certain shows at one desk
  have hanswer := (hr d hfits).1
  have hof := (obeys_resolve hshort exchanges settings b funded tx d hd).1
  have hcall := (gives_call_resolve m exchanges settings b funded tx d trivial).1
  rw [hanswer] at hof hcall
  refine ⟨r, ⟨hof.funder, fun s hs => (hof.swap hs).1, hcall, ?_⟩, fun funded' hsame => ?_⟩
  · rintro s rfl
    exact hplan.2
  · obtain ⟨x, -, hx, hx'⟩ := agree_resolve hm hb hb (fun _ => rfl) exchanges settings tx hsame
    obtain rfl : x = .ok r := (hx d hfits).1.symm.trans hanswer
    exact hx'

omit hm hshort hb hfits hd in
theorem isFollowed_of_unfunded {r : Resolution} {wallet : Address} (h : r.funder? wallet = none)
    (funded : List Address) :
    isFollowed b (r.funded ++ funded) wallet = isFollowed b funded wallet := by
  rw [isFollowed_append]
  cases r with
  | transfer exchange recipient value =>
    have hwallet : wallet ≠ recipient := by
      rintro rfl
      rw [show (Resolution.transfer exchange wallet value).funder? wallet = some exchange
        from if_pos rfl] at h
      exact nomatch h
    show ([recipient].contains wallet || _) = _
    rw [List.contains_cons, List.contains_nil, beq_eq_false_iff_ne.mpr hwallet]
    rfl
  | swap s => rfl
  | skipped reason => rfl
  | ignored reason => rfl

/-- **When independent neighbours change places their resolutions do, and all others are
as they were.** -/
theorem obeys_resolveAll_interchange {t₁ t₂ : Transaction}
    (h : Independent exchanges settings.minTransfer t₁ t₂) (funded : List Address)
    (xs ys : List Transaction) :
    ∃ rs r₁ r₂ rs', r₁.Told exchanges settings.minTransfer a b t₁
      ∧ r₂.Told exchanges settings.minTransfer a b t₂
      ∧ Obeys (Desk.Fits a b) (· = .ok (rs ++ r₁ :: r₂ :: rs'))
          (resolveAll m exchanges settings b funded (xs ++ t₁ :: t₂ :: ys))
      ∧ Obeys (Desk.Fits a b) (· = .ok (rs ++ r₂ :: r₁ :: rs'))
          (resolveAll m exchanges settings b funded (xs ++ t₂ :: t₁ :: ys)) := by
  induction xs generalizing funded with
  | nil =>
    obtain ⟨r₁, ht₁, hr₁⟩ := exists_told hm hshort hb hfits hd exchanges settings funded t₁
    obtain ⟨r₂, ht₂, hr₂⟩ := exists_told hm hshort hb hfits hd exchanges settings funded t₂
    have hunfunded : isFollowed b (r₁.funded ++ funded) t₂.sender = isFollowed b funded t₂.sender :=
      isFollowed_of_unfunded ((ht₁.funder t₂.sender).symm.trans h.unfunded) funded
    have hunfunding : isFollowed b (r₂.funded ++ funded) t₁.sender = isFollowed b funded t₁.sender :=
      isFollowed_of_unfunded ((ht₂.funder t₁.sender).symm.trans h.unfunding) funded
    -- for those behind them it does not matter who has been funded first
    have hrest : ∀ wallet, isFollowed b (r₁.funded ++ (r₂.funded ++ funded)) wallet
        = isFollowed b (r₂.funded ++ (r₁.funded ++ funded)) wallet := by
      intro wallet
      rw [isFollowed_append, isFollowed_append, isFollowed_append, isFollowed_append]
      exact Bool.or_left_comm _ _ _
    obtain ⟨_, ⟨rs', rfl, -⟩, hys, hys'⟩ :=
      agree_resolveAll hm hb hb (fun _ => rfl) exchanges settings hrest ys
    exact ⟨[], r₁, r₂, rs', ht₁, ht₂,
      obeys_resolveAll_cons (hr₁ funded rfl)
        (obeys_resolveAll_cons (hr₂ _ hunfunded) hys),
      obeys_resolveAll_cons (hr₂ funded rfl)
        (obeys_resolveAll_cons (hr₁ _ hunfunding) hys')⟩
  | cons tx xs ih =>
    obtain ⟨r, -, hr⟩ := exists_told hm hshort hb hfits hd exchanges settings funded tx
    obtain ⟨rs, r₁, r₂, rs', ht₁, ht₂, hall, hall'⟩ := ih (r.funded ++ funded)
    exact ⟨r :: rs, r₁, r₂, rs', ht₁, ht₂,
      obeys_resolveAll_cons (hr funded rfl) hall,
      obeys_resolveAll_cons (hr funded rfl) hall'⟩

end

/-! ## §3. Blocks. -/

theorem Summary.ofOutcomes_perm {outcomes outcomes' : List Outcome} (h : outcomes'.Perm outcomes)
    (block : Height) : Summary.ofOutcomes block outcomes' = Summary.ofOutcomes block outcomes := by
  unfold ofOutcomes
  rw [h.length_eq, h.count_eq, h.count_eq, h.count_eq, h.count_eq]

namespace Engine

/-- It makes no difference whether the block has these transactions or those: it is
committed with the same report, and the books are the same but for the time on the
cursor. -/
def Indifferent (m : Market σ) (e : Engine σ) (number : Height) (hash : Hash)
    (txs txs' : List Transaction) : Prop :=
  ∀ now now' : Int64,
    let one := e.process m now ⟨number, hash, txs⟩
    let other := e.process m now' ⟨number, hash, txs'⟩
    ∃ summary, one.1.result = .ok summary ∧ other.1.result = .ok summary
      ∧ other.2.store.handle.books
          = one.2.store.handle.books.put .cursor ⟨number, hash, now'⟩

namespace Indifferent

variable {m : Market σ} {e : Engine σ} {number : Height} {hash : Hash}
  {xs ys zs : List Transaction}

theorem trans (h : e.Indifferent m number hash xs ys) (g : e.Indifferent m number hash ys zs) :
    e.Indifferent m number hash xs zs := by
  intro now now'
  obtain ⟨summary, hxs, hys, hbooks⟩ := h now now'
  obtain ⟨summary', hys', hzs, hbooks'⟩ := g now' now'
  obtain rfl : summary = summary' := Except.ok.inj (hys.symm.trans hys')
  refine ⟨summary, hxs, hzs, ?_⟩
  rw [hbooks', hbooks]
  exact Books.put_put (t := .cursor) (Eq.refl ()) _

/-- Blocks that are booked to the same books are booked so at any time. -/
theorem of_committed {now : Int64} {outcomes outcomes' : List Outcome}
    {rs rs' : List Resolution} {desk desk' : Desk σ} {booked : Books}
    (h : Committed m now ⟨number, hash, xs⟩ e outcomes rs desk booked)
    (h' : Committed m now ⟨number, hash, ys⟩ e outcomes' rs' desk' booked)
    (hperm : outcomes'.Perm outcomes) : e.Indifferent m number hash xs ys := by
  intro now₁ now₂
  have hone : Committed m now₁ ⟨number, hash, xs⟩ e outcomes rs desk booked :=
    committed_of_booked h.open_ h.writable h.resolved h.booking
  have hother : Committed m now₂ ⟨number, hash, ys⟩ e outcomes' rs' desk' booked :=
    committed_of_booked h'.open_ h'.writable h'.resolved h'.booking
  refine ⟨Summary.ofOutcomes number outcomes, ?_, ?_, ?_⟩
  · exact hone.result_eq
  · rw [hother.result_eq, Summary.ofOutcomes_perm hperm]
  · rw [hone.books_eq, hother.books_eq]
    exact (Books.put_put (t := .cursor) (Eq.refl ()) booked).symm

end Indifferent

section

variable {m : Market σ} {a : Answers} (hm : m.Steady a) (hshort : m.Short) {e : Engine σ}
  (he : e.Ready a) (hroom : e.exchanges.RoomIn e.store.handle.books) (number : Height)
  (hash : Hash)

include hm hshort he hroom

/-- **Independent neighbours may change places.** -/
theorem Ready.interchange {t₁ t₂ : Transaction}
    (h : Independent e.exchanges e.settings.minTransfer t₁ t₂) (xs ys : List Transaction) :
    e.Indifferent m number hash (xs ++ t₁ :: t₂ :: ys) (xs ++ t₂ :: t₁ :: ys) := by
  have hfits := he.fits e.store.handle.books
  have hd : Desk.Short (⟨e.chain, e.factories, [], []⟩ : Desk σ) := nofun
  obtain ⟨rs, r₁, r₂, rs', ht₁, ht₂, hone, hother⟩ := obeys_resolveAll_interchange hm hshort
    he.readable hfits hd e.exchanges e.settings h [] xs ys
  -- the block as it is, and what its resolutions are
  obtain ⟨outcomes, rsAll, desk, booked, hc, -⟩ :=
    he.committed hm hshort 0 ⟨number, hash, xs ++ t₁ :: t₂ :: ys⟩
  obtain rfl : rsAll = rs ++ r₁ :: r₂ :: rs' :=
    Except.ok.inj ((congrArg Prod.fst hc.resolved).symm.trans (hone _ hfits).1)
  -- the other block, which is resolved and booked likewise
  have hsound := hc.sound hshort
  obtain ⟨outcomes', hbooking, hperm⟩ := bookAll_interchange he.names
    (hsound r₁ (by simp)) (hsound r₂ (by simp)) (h.apart ht₁ ht₂)
    (fun r hr => hsound r (List.mem_append_left _ hr)) hroom hc.booking
  exact .of_committed hc
    (committed_of_booked hc.open_ hc.writable (Prod.ext (hother _ hfits).1 rfl) hbooking) hperm

omit hroom in
theorem Ready.indifferent_self (txs : List Transaction) :
    e.Indifferent m number hash txs txs := by
  obtain ⟨outcomes, rs, desk, booked, hc, -⟩ := he.committed hm hshort 0 ⟨number, hash, txs⟩
  exact .of_committed hc hc (.refl _)

/-- **Transfers may be in any order.** -/
theorem Ready.permute {txs txs' : List Transaction} (hperm : txs.Perm txs')
    (h : ∀ tx ∈ txs, tx.Funds e.exchanges e.settings.minTransfer) (xs : List Transaction) :
    e.Indifferent m number hash (xs ++ txs) (xs ++ txs') := by
  induction hperm generalizing xs with
  | nil => exact he.indifferent_self hm hshort number hash _
  | @cons tx txs txs' _ ih =>
    -- the first one joins those before
    have hrest := ih (fun tx htx => h tx (List.mem_cons_of_mem _ htx)) (xs ++ [tx])
    rw [List.append_assoc, List.append_assoc] at hrest
    exact hrest
  | swap t₂ t₁ txs =>
    exact he.interchange hm hshort hroom number hash
      (.of_funds (h t₁ List.mem_cons_self) (h t₂ (by simp))) xs txs
  | trans hfirst _ ih₁ ih₂ =>
    exact (ih₁ h xs).trans (ih₂ (fun tx htx => h tx (hfirst.mem_iff.mpr htx)) xs)

end

end Engine

/-- **Independent transactions commute.**  On a chain that always answers the same, two
neighbours in a block that have nothing to do with each other may change places: the
report is the same, and so are the books but for the time on the cursor.  The transfers
of a block of transfers may be in any order. -/
theorem independent_transactions_commute {σ : Type} {m : Market σ} {a : Answers}
    (hm : m.Steady a) (hshort : m.Short) {e : Engine σ} (he : e.Ready a)
    (hroom : e.exchanges.RoomIn e.store.handle.books) (number : Height) (hash : Hash) :
    (∀ xs t₁ t₂ ys, Independent e.exchanges e.settings.minTransfer t₁ t₂ →
      e.Indifferent m number hash (xs ++ t₁ :: t₂ :: ys) (xs ++ t₂ :: t₁ :: ys))
    ∧ ∀ txs txs' : List Transaction,
        (∀ tx ∈ txs, tx.Funds e.exchanges e.settings.minTransfer) → txs.Perm txs' →
        e.Indifferent m number hash txs txs' :=
  ⟨fun xs _ _ ys h => he.interchange hm hshort hroom number hash h xs ys,
    fun _ _ h hperm => he.permute hm hshort hroom number hash hperm h []⟩

/-- The exchanges fund two wallets, the one of them twice. -/
def fundings : List Transaction := [
  ⟨.ofPrefix [1], shortAddress 1, some (shortAddress 2), .top, []⟩,
  ⟨.ofPrefix [2], shortAddress 6, some (shortAddress 2), oneEther, []⟩,
  ⟨.ofPrefix [3], shortAddress 6, some (shortAddress 8), oneEther, []⟩]

/-- The first wallet goes to token 5. -/
def firstBuyer : Transaction :=
  ⟨.ofPrefix [4], shortAddress 2, some (shortAddress 3), oneEther,
    swapInput [shortAddress 4, shortAddress 5]⟩

/-- The second wallet goes by token 5 to token 7. -/
def secondBuyer : Transaction :=
  ⟨.ofPrefix [5], shortAddress 8, some (shortAddress 3), oneEther,
    swapInput [shortAddress 4, shortAddress 5, shortAddress 7]⟩

theorem independent_buyers :
    Independent twoExchanges.exchanges twoExchanges.settings.minTransfer firstBuyer secondBuyer := by
  refine ⟨by decide +kernel, by decide +kernel, fun c₁ c₂ h₁ h₂ => ⟨by decide, ?_⟩⟩
  have hbought : (firstBuyer.swapCall? twoExchanges.exchanges
        twoExchanges.settings.minTransfer).map SwapCall.tokenOut = some (shortAddress 5)
      ∧ (secondBuyer.swapCall? twoExchanges.exchanges
        twoExchanges.settings.minTransfer).map SwapCall.tokenOut = some (shortAddress 7) := by
    decide +kernel
  rw [h₁, h₂] at hbought
  rw [Option.some.inj hbought.1, Option.some.inj hbought.2]
  decide

/-- The wallets may buy in any order, although the path of the second goes by the token
of the first; and they may be funded in any order, although the first gets more than a
total can tell. -/
theorem independent_transactions_commute_buyers :
    twoExchanges.Indifferent evenMarket (.clamp 1) .zero
        (fundings ++ [firstBuyer, secondBuyer]) (fundings ++ [secondBuyer, firstBuyer])
      ∧ twoExchanges.Indifferent evenMarket (.clamp 1) .zero fundings fundings.reverse
      ∧ (twoExchanges.process evenMarket 0
          ⟨.clamp 1, .zero, fundings ++ [firstBuyer, secondBuyer]⟩).1.result.toOption
        = some ⟨.clamp 1, 5, 3, 2, 0, 0⟩ := by
  have hsteady : evenMarket.Steady evenAnswers :=
    ⟨fun _ _ => rfl, fun _ _ => rfl, fun _ _ _ _ => rfl⟩
  have hready : twoExchanges.Ready evenAnswers :=
    Engine.ready_new evenAnswers rfl rfl Books.readable_empty storable_twoExchanges.short .default ()
  obtain ⟨hneighbours, htransfers⟩ := independent_transactions_commute hsteady short_evenMarket
    hready (.of_empty storable_twoExchanges rfl) (.clamp 1) .zero
  refine ⟨hneighbours fundings firstBuyer secondBuyer [] independent_buyers,
    htransfers fundings fundings.reverse ?_ (List.reverse_perm _).symm, by decide +kernel⟩
  have hfunds : ∀ tx ∈ fundings, ∃ wallet ∈ [shortAddress 2, shortAddress 8],
      (tx.funder? twoExchanges.exchanges twoExchanges.settings.minTransfer wallet).isSome := by
    decide +kernel
  intro tx htx
  obtain ⟨wallet, -, hsome⟩ := hfunds tx htx
  exact ⟨wallet, Option.isSome_iff_exists.mp hsome⟩

end FundTrail
