/-
  FundTrail.Proofs.Engine.Steady
  ──────────────────────────────
  **RESOLUTIONS ON A CHAIN THAT ALWAYS ANSWERS THE SAME.**

  While a block is resolved, answers are remembered, and of tokens the books are
  asked before the chain.  On a chain whose answers depend on the question alone
  none of this shows: what is at hand is what the chain would say, or what the
  books say.  So a resolution depends on the books only through what their tokens
  say of themselves and through who is followed.

  Main facts: `agree_resolve` and `agree_resolveAll`.
-/
import FundTrail.Proofs.Engine.Sound
import FundTrail.Proofs.Store.Readable

namespace FundTrail

open FundTrail.Store

variable {σ : Type}

/-! ## §1. Chains, books and desks. -/

/-- Answers that depend on the question alone. -/
structure Answers where
  factoryOf : Address → Except ChainError Address
  metadataOf : Address → Except ChainError Metadata
  reservesOf : Address → Address → Address → Except ChainError PairReserves

/-- The chain gives these answers, whatever it has been asked before. -/
structure Market.Steady (m : Market σ) (a : Answers) : Prop where
  factoryOf : ∀ router w, (m.factoryOf router w).1 = a.factoryOf router
  metadataOf : ∀ token w, (m.metadataOf token w).1 = a.metadataOf token
  reservesOf : ∀ factory x y w, (m.reservesOf factory x y w).1 = a.reservesOf factory x y

/-- What a token says of itself: in the books, or else on the chain. -/
def Answers.said (a : Answers) (b : Books) (token : Address) : Except ChainError Metadata :=
  match b.find? .tokens token with
  | .ok (some row) => .ok ⟨row.symbol, row.decimals⟩
  | _ => a.metadataOf token

/-- What is at hand is what the chain and the books say. -/
structure Desk.Fits (a : Answers) (b : Books) (d : Desk σ) : Prop where
  factories : ∀ p ∈ d.factories, a.factoryOf p.1 = .ok p.2
  metadata : ∀ p ∈ d.metadata, a.said b p.1 = .ok p.2

/-- What has been found in a list of answers is one of them. -/
theorem mem_of_lookup {α β : Type} [BEq α] [LawfulBEq α] {l : List (α × β)} {k : α} {v : β}
    (h : l.lookup k = some v) : (k, v) ∈ l := by
  obtain ⟨l₁, l₂, hsplit, -⟩ := List.lookup_eq_some_iff.mp h
  rw [hsplit]
  exact List.mem_append_right _ List.mem_cons_self

theorem Desk.Fits.remember {a : Answers} {b : Books} {d : Desk σ} (h : d.Fits a b)
    {token : Address} {answer : Metadata} (hsaid : a.said b token = .ok answer) :
    Desk.Fits a b { d with metadata := (token, answer) :: d.metadata } where
  factories := h.factories
  metadata := by
    intro p hp
    rcases List.mem_cons.mp hp with rfl | hp
    · exact hsaid
    · exact h.metadata p hp

/-! ## §2. What is asked of the chain. -/

section

open Asking

/-- The question has the same answer whenever it is asked. -/
def Asking.Constant {ε α : Type} (x : Asking σ ε α) : Prop :=
  Agree (fun _ => True) (fun _ => True) (fun _ => True) x x

theorem Asking.Constant.followed {ε α β : Type} {x : Asking σ ε α} {f : α → Asking σ ε β}
    (h : Constant x) (hf : ∀ y, Constant (f y)) : Constant (x >>= f) :=
  h.bind (fun y _ => hf y) fun _ _ => trivial

theorem agree_ask {a : Answers} {b b' : Books} {ε α : Type} {question : Asking σ ε α}
    (h : Constant question) :
    Agree (Desk.Fits a b) (Desk.Fits a b') (fun _ => True) (Desk.ask question)
      (Desk.ask question) := by
  obtain ⟨r, -, hr, -⟩ := h
  refine ⟨r, trivial, fun d hd => ?_, fun d hd => ?_⟩
  · exact ⟨(hr d.chain trivial).1, ⟨hd.factories, hd.metadata⟩⟩
  · exact ⟨(hr d.chain trivial).1, ⟨hd.factories, hd.metadata⟩⟩

variable {m : Market σ} {a : Answers} (hm : m.Steady a)

include hm

/-- A factory that is remembered is the one that the chain would name, so it is the one
that is given, and what is remembered afterwards is no different. -/
theorem answer_factoryOf (router : Address) {d : Desk σ}
    (hd : ∀ p ∈ d.factories, a.factoryOf p.1 = .ok p.2) :
    (Desk.factoryOf m router d).1 = a.factoryOf router
      ∧ (∀ p ∈ (Desk.factoryOf m router d).2.factories, a.factoryOf p.1 = .ok p.2)
      ∧ (Desk.factoryOf m router d).2.metadata = d.metadata
      ∧ (Desk.factoryOf m router d).2.skips = d.skips := by
  have hanswer := hm.factoryOf router d.chain
  unfold Desk.factoryOf
  split
  next factory hknown => exact ⟨(hd _ (mem_of_lookup hknown)).symm, hd, rfl, rfl⟩
  next =>
    split
    next factory chain hask =>
      rw [hask] at hanswer
      refine ⟨hanswer, fun p hp => ?_, rfl, rfl⟩
      rcases List.mem_cons.mp hp with rfl | hp
      · exact hanswer.symm
      · exact hd p hp
    next e chain hask =>
      rw [hask] at hanswer
      exact ⟨hanswer, hd, rfl, rfl⟩

theorem fits_factoryOf (b : Books) (router : Address) :
    Obeys (Desk.Fits a b) (· = a.factoryOf router) (Desk.factoryOf m router) := by
  intro d hd
  obtain ⟨hanswer, hfactories, hmetadata, -⟩ := answer_factoryOf hm router hd.factories
  exact ⟨hanswer, hfactories, by rw [hmetadata]; exact hd.metadata⟩

/-- Neither is what is remembered of a token anything but what it says. -/
theorem fits_metadataOf {b : Books} (hb : b.Readable) (token : Address) :
    Obeys (Desk.Fits a b) (· = (a.said b token).mapError fun e => .skip (.unanswered e))
      (Desk.metadataOf m b token) := by
  intro d hd
  have hanswer := hm.metadataOf token d.chain
  obtain ⟨found, hfind⟩ : ∃ found, b.find? .tokens token = .ok found :=
    hb.find? .token Table.keyed_tokens token
  unfold Desk.metadataOf
  split
  -- it has been asked before in this block
  next known hknown =>
    have hsaid := hd.metadata _ (mem_of_lookup hknown)
    simp only at hsaid
    rw [hsaid]
    exact ⟨rfl, hd⟩
  next =>
    cases found with
    | some row =>
      -- the books know the token
      have hsaid : a.said b token = .ok ⟨row.symbol, row.decimals⟩ := by
        unfold Answers.said
        rw [hfind]
      rw [hfind, hsaid]
      exact ⟨rfl, hd.remember hsaid⟩
    | none =>
      -- the chain is asked
      have hsaid : a.said b token = a.metadataOf token := by
        unfold Answers.said
        rw [hfind]
      rw [hfind, hsaid]
      simp only
      split
      next answer chain hask =>
        rw [hask] at hanswer
        rw [← hanswer]
        have hfits : Desk.Fits a b { d with chain } := ⟨hd.factories, hd.metadata⟩
        exact ⟨rfl, hfits.remember (hsaid.trans hanswer.symm)⟩
      next e chain hask =>
        rw [hask] at hanswer
        rw [← hanswer]
        exact ⟨rfl, ⟨hd.factories, hd.metadata⟩⟩

/-- Reserves are always the same. -/
theorem constant_reservesOfHops (factory : Address) (pairs : List (Address × Address)) :
    Constant (reservesOfHops m factory pairs) := by
  induction pairs with
  | nil => exact .pure trivial
  | cons pair pairs ih =>
    have hask : Constant (m.reservesOf factory pair.1 pair.2) := by
      refine ⟨a.reservesOf factory pair.1 pair.2, trivial, ?_, ?_⟩
      · exact fun w _ => ⟨hm.reservesOf factory pair.1 pair.2 w, trivial⟩
      · exact fun w _ => ⟨hm.reservesOf factory pair.1 pair.2 w, trivial⟩
    have hraw : Constant ((m.reservesOf factory pair.1 pair.2).withError PriceError.chain) :=
      hask.withError fun _ _ => trivial
    refine hraw.followed fun raw => ?_
    refine Constant.followed (.ofExcept trivial) fun r => ?_
    exact ih.followed fun rs => .pure trivial

/-- So the price along a path is always the same. -/
theorem constant_pathPrice (factory : Address) (path : List Address) (decimals : UInt8)
    (fee : Option Fee) : Constant (pathPrice m factory path decimals fee) := by
  have halong : Constant (reservesAlong m factory path) := by
    unfold reservesAlong
    split
    next => exact .fail trivial
    next => exact constant_reservesOfHops hm factory _
  unfold pathPrice
  split
  next => exact .fail trivial
  next unit _ =>
    refine halong.followed fun rs => ?_
    refine Constant.followed (.ofExcept trivial) fun value => ?_
    split
    next => exact .ofExcept trivial
    next => exact .pure trivial

end

/-! ## §3. Resolutions on two books. -/

/-- A swap is found out or skipped, but the books can be read. -/
def Unhalted {α : Type} (Q : α → Prop) : Except Setback α → Prop
  | .ok x => Q x
  | .error (.skip _) => True
  | .error (.halt _) => False

theorem Unhalted.error {α β : Type} {Q : α → Prop} {Q' : β → Prop} (e : Setback)
    (h : Unhalted Q (.error e)) : Unhalted Q' (.error e) := by
  cases e with
  | skip reason => trivial
  | halt e => exact h

theorem unhalted_mapError {α ε : Type} (reason : ε → SkipReason) (x : Except ε α) :
    Unhalted (fun _ => True) (x.mapError fun e => .skip (reason e)) := by
  cases x <;> trivial

/-- What is certain of a resolution on a steady chain: the wallet of a swap is
followed, and its tokens come with what they say of themselves. -/
def Resolution.Planned (a : Answers) (b : Books) (funded : List Address) : Resolution → Prop
  | .swap s => isFollowed b funded s.wallet = true ∧ ∀ p ∈ s.tokens, a.said b p.1 = .ok p.2
  | _ => True

/-- The same of resolutions in order, each of which may fund wallets. -/
def PlannedAll (a : Answers) (b : Books) : List Address → List Resolution → Prop
  | _, [] => True
  | funded, r :: rs => r.Planned a b funded ∧ PlannedAll a b (r.funded ++ funded) rs

/-- What a resolution makes of a swap that has been looked into. -/
def settled : Except Setback PricedSwap → Except StoreError Resolution
  | .ok swap => .ok (.swap swap)
  | .error (.skip reason) => .ok (.skipped reason)
  | .error (.halt e) => .error e

section

open Asking

theorem obeys_resolve_swapCall {m : Market σ} {exchanges : ExchangeSet} {settings : Settings}
    {a : Answers} {b : Books} {funded : List Address} {tx : Transaction}
    {wallet router : Address} {method : SwapMethod} {x : Except Setback PricedSwap}
    (hclass : classOf exchanges settings b funded tx = .swapCall wallet router method)
    (h : Obeys (Desk.Fits a b) (· = x) (resolveSwap m settings.fee b tx wallet router)) :
    Obeys (Desk.Fits a b) (· = settled x) (resolve m exchanges settings b funded tx) := by
  intro d hd
  obtain ⟨hx, hfits⟩ := h d hd
  unfold resolve
  rw [hclass]
  simp only
  split
  next swap d' hs =>
    rw [hs] at hx hfits
    rw [← hx]
    exact ⟨rfl, hfits⟩
  next reason d' hs =>
    rw [hs] at hx hfits
    rw [← hx]
    exact ⟨rfl, ⟨hfits.factories, hfits.metadata⟩⟩
  next e d' hs =>
    rw [hs] at hx hfits
    rw [← hx]
    exact ⟨rfl, hfits⟩

/-- The resolutions of a block that are known one by one. -/
theorem obeys_resolveAll_cons {m : Market σ} {exchanges : ExchangeSet} {settings : Settings}
    {a : Answers} {b : Books} {funded : List Address} {tx : Transaction}
    {txs : List Transaction} {r : Resolution} {rs : List Resolution}
    (hr : Obeys (Desk.Fits a b) (· = .ok r) (resolve m exchanges settings b funded tx))
    (hrs : Obeys (Desk.Fits a b) (· = .ok rs)
      (resolveAll m exchanges settings b (r.funded ++ funded) txs)) :
    Obeys (Desk.Fits a b) (· = .ok (r :: rs))
      (resolveAll m exchanges settings b funded (tx :: txs)) :=
  hr.bind_of_ok (hrs.bind_of_ok (.pure rfl))

variable {m : Market σ} {a : Answers} (hm : m.Steady a) {b b' : Books} (hb : b.Readable)
  (hb' : b'.Readable) (hsaid : ∀ token, a.said b' token = a.said b token)

include hm hb hb' hsaid

theorem agree_metadataAlong (path : List Address) :
    Agree (Desk.Fits a b) (Desk.Fits a b')
      (Unhalted fun tokens => ∀ p ∈ tokens, a.said b p.1 = .ok p.2)
      (Desk.metadataAlong m b path) (Desk.metadataAlong m b' path) := by
  induction path with
  | nil =>
    refine .pure ?_
    intro p hp
    cases hp
  | cons token path ih =>
    have hfirst : Agree (Desk.Fits a b) (Desk.Fits a b')
        (Unhalted fun answer => a.said b token = .ok answer)
        (Desk.metadataOf m b token) (Desk.metadataOf m b' token) := by
      refine ⟨_, ?_, fits_metadataOf hm hb token, ?_⟩
      · cases a.said b token with
        | error e => trivial
        | ok answer => exact rfl
      · rw [← hsaid]
        exact fits_metadataOf hm hb' token
    -- the first token, and then the others; an error ends both
    refine hfirst.bind (fun answer hanswer => ?_) ?_
    · refine ih.bind (fun answers hanswers => .pure ?_) ?_
      · intro p hp
        rcases List.mem_cons.mp hp with rfl | hp
        · exact hanswer
        · exact hanswers p hp
      · exact fun e => Unhalted.error e
    · exact fun e => Unhalted.error e

theorem agree_resolveSwap (fee : Option Fee) (tx : Transaction) (wallet router : Address) :
    Agree (Desk.Fits a b) (Desk.Fits a b')
      (Unhalted fun s : PricedSwap => s.wallet = wallet ∧ ∀ p ∈ s.tokens, a.said b p.1 = .ok p.2)
      (resolveSwap m fee b tx wallet router) (resolveSwap m fee b' tx wallet router) := by
  have hfactory : Agree (Desk.Fits a b) (Desk.Fits a b') (Unhalted fun _ => True)
      ((Desk.factoryOf m router).withError fun e => .skip (.unanswered e))
      ((Desk.factoryOf m router).withError fun e => .skip (.unanswered e)) := by
    have hask : Agree (Desk.Fits a b) (Desk.Fits a b') (fun _ => True)
        (Desk.factoryOf m router) (Desk.factoryOf m router) :=
      ⟨a.factoryOf router, trivial, fits_factoryOf hm b router, fits_factoryOf hm b' router⟩
    exact hask.withError fun r _ => unhalted_mapError _ r
  unfold resolveSwap
  refine (Agree.ofExcept (unhalted_mapError .undecodable _)).bind (fun call _ => ?_) fun e =>
    Unhalted.error e
  refine hfactory.bind (fun factory _ => ?_) fun e => Unhalted.error e
  refine (agree_metadataAlong hm hb hb' hsaid call.path).bind (fun tokens htokens => ?_) fun e =>
    Unhalted.error e
  cases tokens.getLast? with
  | none => exact .fail trivial
  | some last =>
    have hprice : Agree (Desk.Fits a b) (Desk.Fits a b') (Unhalted fun _ => True)
        ((Desk.ask (pathPrice m factory call.path last.2.decimals fee)).withError
          fun e => .skip (.unpriced e))
        ((Desk.ask (pathPrice m factory call.path last.2.decimals fee)).withError
          fun e => .skip (.unpriced e)) :=
      (agree_ask (constant_pathPrice hm factory call.path last.2.decimals fee)).withError
        fun r _ => unhalted_mapError _ r
    exact hprice.bind (fun price _ => .pure ⟨rfl, htokens⟩) fun e => Unhalted.error e

/-- **A resolution is the same on two books** that tell the same of tokens and of
whether the sender is followed. -/
theorem agree_resolve (exchanges : ExchangeSet) (settings : Settings)
    {funded funded' : List Address} (tx : Transaction)
    (hfollowed : isFollowed b' funded' tx.sender = isFollowed b funded tx.sender) :
    Agree (Desk.Fits a b) (Desk.Fits a b') (fun x => ∃ r, x = .ok r ∧ r.Planned a b funded)
      (resolve m exchanges settings b funded tx) (resolve m exchanges settings b' funded' tx) := by
  have hclass : classOf exchanges settings b' funded' tx
      = classOf exchanges settings b funded tx := by
    rw [classOf_eq, classOf_eq]
    rcases judge_cases exchanges settings.minTransfer tx with
      ⟨_, _, h, -⟩ | ⟨⟨_, h⟩ | ⟨_, _, h⟩, -⟩
    · rw [h]
    · rw [h]
    · rw [h]
      simp only [hfollowed]
  rcases classOf_cases exchanges settings b funded tx with
    ⟨exchange, recipient, h, -⟩ | ⟨⟨router, method, hwallet, h⟩ | ⟨reason, h⟩, -⟩
  · unfold resolve
    rw [hclass, h]
    exact .pure ⟨_, rfl, trivial⟩
  -- a swap call: both books have the same found out
  · obtain ⟨x, hx, hs, hs'⟩ := agree_resolveSwap hm hb hb' hsaid settings.fee tx tx.sender router
    refine ⟨settled x, ?_, obeys_resolve_swapCall h hs,
      obeys_resolve_swapCall (hclass.trans h) hs'⟩
    match x, hx with
    | .ok swap, hswap => exact ⟨.swap swap, rfl, by rw [hswap.1]; exact hwallet, hswap.2⟩
    | .error (.skip reason), _ => exact ⟨.skipped reason, rfl, trivial⟩
  · unfold resolve
    rw [hclass, h]
    exact .pure ⟨_, rfl, trivial⟩

/-- The same for the transactions of a block. -/
theorem agree_resolveAll (exchanges : ExchangeSet) (settings : Settings)
    {funded funded' : List Address}
    (hfollowed : ∀ w, isFollowed b' funded' w = isFollowed b funded w)
    (txs : List Transaction) :
    Agree (Desk.Fits a b) (Desk.Fits a b')
      (fun x => ∃ rs, x = .ok rs ∧ PlannedAll a b funded rs)
      (resolveAll m exchanges settings b funded txs)
      (resolveAll m exchanges settings b' funded' txs) := by
  induction txs generalizing funded funded' with
  | nil => exact .pure ⟨[], rfl, trivial⟩
  | cons tx txs ih =>
    refine (agree_resolve hm hb hb' hsaid exchanges settings tx (hfollowed tx.sender)).bind ?_ ?_
    · rintro r ⟨_, ⟨⟩, hr⟩
      -- the wallets it funds are added on both sides
      have hrest : ∀ w, isFollowed b' (r.funded ++ funded') w
          = isFollowed b (r.funded ++ funded) w := by
        intro w
        have hw := hfollowed w
        unfold isFollowed at hw ⊢
        rw [List.contains_append, List.contains_append, Bool.or_assoc, Bool.or_assoc, hw]
      refine (ih hrest).bind ?_ ?_
      · rintro rs ⟨_, ⟨⟩, hrs⟩
        exact .pure ⟨r :: rs, rfl, hr, hrs⟩
      · rintro e ⟨_, he, -⟩
        cases he
    · rintro e ⟨_, he, -⟩
      cases he

end

end FundTrail
