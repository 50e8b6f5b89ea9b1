/-
  FundTrail.Proofs.Engine.Sound
  ─────────────────────────────
  **WHAT RESOLUTIONS HOLD, WHATEVER THE CHAIN SAYS.**

  A chain may answer as it likes, and differently every time.  Of a resolved
  swap it is certain nevertheless that its tokens are those of the path, that the
  token that comes out is the last of them, and that everything in it can be
  written down and read again; and who funds whom is a matter of the transaction
  alone, whatever the chain says and whatever is in the books.

  Main facts: `obeys_resolveAll`, `Committed.resolutions` and `Committed.sound`.
-/
import FundTrail.Proofs.Chain.Asking
import FundTrail.Proofs.Engine.Commit
import FundTrail.Proofs.Classification

namespace FundTrail

open FundTrail.Store

variable {σ : Type}

/-! ## §1. Sound resolutions. -/

/-- What is certain of a resolved swap. -/
structure PricedSwap.Sound (swap : PricedSwap) : Prop where
  /-- The tokens are those of the path. -/
  along : swap.tokens.map Prod.fst = swap.call.path
  last : swap.call.path.getLast? = some swap.call.tokenOut
  short_path : swap.call.path.length < 2 ^ 32
  short_symbols : ∀ p ∈ swap.tokens, IsShort p.2.symbol

theorem PricedSwap.Sound.path_ne_nil {swap : PricedSwap} (h : swap.Sound) :
    swap.call.path ≠ [] := by
  intro hnil
  have hlast := h.last
  rw [hnil] at hlast
  exact nomatch hlast

/-- What is noted of the swap can be read again. -/
theorem PricedSwap.Sound.keeps_record {swap : PricedSwap} (h : swap.Sound) :
    Table.swaps.Keeps swap.record :=
  Table.keeps_swap h.path_ne_nil (Nat.lt_trans h.short_path (by decide))

/-- What is certain of a resolution. -/
def Resolution.Sound (exchanges : ExchangeSet) : Resolution → Prop
  | .transfer exchange _ _ => ∃ wallet, exchanges.nameOf? wallet = some exchange
  | .swap s => s.Sound
  | _ => True

/-- The swap is the one that its sender makes by the transaction. -/
structure PricedSwap.Of (tx : Transaction) (swap : PricedSwap) : Prop where
  sound : swap.Sound
  txHash : swap.txHash = tx.hash
  wallet : swap.wallet = tx.sender
  amountIn : swap.call.amountIn = tx.value

/-- The exchange that funds `wallet` by the transaction, if one does: enough is
sent to the wallet, out of a wallet of the exchange, and the wallet itself is not
one of an exchange. -/
def Transaction.funder? (exchanges : ExchangeSet) (minTransfer : Amount) (wallet : Address)
    (tx : Transaction) : Option String :=
  if tx.recipient = some wallet ∧ minTransfer ≤ tx.value ∧ exchanges.contains wallet = false
  then exchanges.nameOf? tx.sender
  else none

/-- The exchange that funds `wallet` according to a resolution. -/
def Resolution.funder? (wallet : Address) : Resolution → Option String
  | .transfer exchange recipient _ => if wallet = recipient then some exchange else none
  | _ => none

/-- `r` is what a transaction comes to, told of the books and of the wallets that
its block has funded before it. -/
structure Resolution.Of (exchanges : ExchangeSet) (minTransfer : Amount) (books : Books)
    (funded : List Address) (tx : Transaction) (r : Resolution) : Prop where
  funder : ∀ wallet, tx.funder? exchanges minTransfer wallet = r.funder? wallet
  transfer : ∀ {exchange wallet value}, r = .transfer exchange wallet value → value = tx.value
  swap : ∀ {s}, r = .swap s → s.Of tx ∧ isFollowed books funded tx.sender = true

/-- The resolutions are what transactions come to, each told of those before it. -/
inductive ResolutionsOf (exchanges : ExchangeSet) (minTransfer : Amount) (books : Books) :
    List Address → List Transaction → List Resolution → Prop where
  | nil {funded} : ResolutionsOf exchanges minTransfer books funded [] []
  | cons {funded tx txs r rs} :
      r.Of exchanges minTransfer books funded tx →
      ResolutionsOf exchanges minTransfer books (r.funded ++ funded) txs rs →
      ResolutionsOf exchanges minTransfer books funded (tx :: txs) (r :: rs)

/-- The texts that a chain gives have a length of 64 bits. -/
def Market.Short (m : Market σ) : Prop :=
  ∀ token w answer, (m.metadataOf token w).1 = .ok answer → IsShort answer.symbol

/-- The texts at hand have a length of 64 bits. -/
def Desk.Short (d : Desk σ) : Prop := ∀ p ∈ d.metadata, IsShort p.2.symbol

/-! ## §2. Calls. -/

/-- What is certain of a call that has been decoded. -/
theorem decode_eq_ok {input : Bytes} {value : Amount} {call : SwapCall}
    (h : SwapCall.decode input value = .ok call) :
    call.path.getLast? = some call.tokenOut ∧ call.path.length < 2 ^ 32
      ∧ call.amountIn = value := by
  cases SwapCall.decode_eq_iff_decodes.mp h with
  | call hpath hlaid => exact ⟨List.getLast?_eq_some_getLast hpath, hlaid.path.few, rfl⟩

/-! ## §3. Classes. -/

theorem classOf_eq (exchanges : ExchangeSet) (settings : Settings) (books : Books)
    (funded : List Address) (tx : Transaction) :
    classOf exchanges settings books funded tx
      = match judge exchanges settings.minTransfer tx with
        | .settled result => result
        | .swapIfTracked wallet router method =>
            if isFollowed books funded wallet then .swapCall wallet router method
            else .ignored .untrackedSender := by
  unfold classOf classify
  cases judge exchanges settings.minTransfer tx with
  | settled result => rfl
  | swapIfTracked wallet router method =>
    show (if isFollowed books funded wallet then _ else _ : Id Classification)
      = if isFollowed books funded wallet then _ else _
    cases isFollowed books funded wallet <;> rfl

theorem Transaction.funder?_eq_some_iff {exchanges : ExchangeSet} {minTransfer : Amount}
    {wallet : Address} {tx : Transaction} {exchange : String} :
    tx.funder? exchanges minTransfer wallet = some exchange
      ↔ tx.recipient = some wallet ∧ minTransfer ≤ tx.value
        ∧ exchanges.contains wallet = false ∧ exchanges.nameOf? tx.sender = some exchange := by
  unfold funder?
  split
  next h => exact ⟨fun hname => ⟨h.1, h.2.1, h.2.2, hname⟩, fun hall => hall.2.2.2⟩
  next h => exact ⟨nofun, fun hall => absurd ⟨hall.1, hall.2.1, hall.2.2.1⟩ h⟩

/-- What can be said of a transaction by itself, and whom it funds. -/
theorem judge_cases (exchanges : ExchangeSet) (minValue : Amount) (tx : Transaction) :
    (∃ exchange recipient,
      judge exchanges minValue tx = .settled (.transfer exchange recipient tx.value)
      ∧ ∀ wallet, tx.funder? exchanges minValue wallet
          = if wallet = recipient then some exchange else none)
    ∨ ((∃ reason, judge exchanges minValue tx = .settled (.ignored reason))
        ∨ ∃ router method, judge exchanges minValue tx = .swapIfTracked tx.sender router method)
      ∧ ∀ wallet, tx.funder? exchanges minValue wallet = none := by
  have hfunds : ∀ {wallet exchange}, tx.funder? exchanges minValue wallet = some exchange →
      judge exchanges minValue tx = .settled (.transfer exchange wallet tx.value) := by
    intro wallet exchange h
    obtain ⟨hto, henough, houtside, hname⟩ := Transaction.funder?_eq_some_iff.mp h
    exact judge_eq_transfer_iff.mpr ⟨⟨hto, henough, houtside⟩, hname, rfl⟩
  rcases hj : judge exchanges minValue tx with result | ⟨wallet, router, method⟩
  · cases result with
    | transfer exchange recipient value =>
      -- this is the one case in which somebody is funded
      obtain ⟨hreaches, hname, rfl⟩ := judge_eq_transfer_iff.mp hj
      refine .inl ⟨exchange, recipient, rfl, fun wallet => ?_⟩
      by_cases hw : wallet = recipient
      · rw [if_pos hw, hw]
        exact Transaction.funder?_eq_some_iff.mpr
          ⟨hreaches.goes, hreaches.enough, hreaches.outside, hname⟩
      · rw [if_neg hw, Option.eq_none_iff_forall_ne_some]
        intro name hfunder
        have hto := (Transaction.funder?_eq_some_iff.mp hfunder).1
        exact hw (Option.some.inj (hto.symm.trans hreaches.goes))
    | swapCall wallet router method => exact nomatch judge_eq_iff_judged.mp hj
    | ignored reason =>
      refine .inr ⟨.inl ⟨reason, rfl⟩, fun wallet => ?_⟩
      exact Option.eq_none_iff_forall_ne_some.mpr fun _ h => nomatch hj.symm.trans (hfunds h)
  · obtain ⟨rfl, -⟩ := judge_eq_swapIfTracked_iff.mp hj
    refine .inr ⟨.inr ⟨router, method, rfl⟩, fun wallet => ?_⟩
    exact Option.eq_none_iff_forall_ne_some.mpr fun _ h => nomatch hj.symm.trans (hfunds h)

/-- What a transaction can be, and whom it funds. -/
theorem classOf_cases (exchanges : ExchangeSet) (settings : Settings) (books : Books)
    (funded : List Address) (tx : Transaction) :
    (∃ exchange recipient,
      classOf exchanges settings books funded tx = .transfer exchange recipient tx.value
      ∧ ∀ wallet, tx.funder? exchanges settings.minTransfer wallet
          = if wallet = recipient then some exchange else none)
    ∨ ((∃ router method, isFollowed books funded tx.sender = true
          ∧ classOf exchanges settings books funded tx = .swapCall tx.sender router method)
        ∨ ∃ reason, classOf exchanges settings books funded tx = .ignored reason)
      ∧ ∀ wallet, tx.funder? exchanges settings.minTransfer wallet = none := by
  rw [classOf_eq]
  -- the books are asked only where the rest speaks for a swap
  rcases judge_cases exchanges settings.minTransfer tx with
    ⟨exchange, recipient, h, hfunder⟩ | ⟨⟨reason, h⟩ | ⟨router, method, h⟩, hfunder⟩
  · rw [h]
    exact .inl ⟨exchange, recipient, rfl, hfunder⟩
  · rw [h]
    exact .inr ⟨.inr ⟨reason, rfl⟩, hfunder⟩
  · rw [h]
    refine .inr ⟨?_, hfunder⟩
    cases hf : isFollowed books funded tx.sender with
    | true => exact .inl ⟨router, method, rfl, by simp only [hf, if_true]⟩
    | false =>
      refine .inr ⟨.untrackedSender, ?_⟩
      simp only [hf]
      rfl

/-! ## §4. Questions and resolutions. -/

section

open Asking

theorem Desk.Short.remember {d : Desk σ} (h : d.Short) {token : Address} {answer : Metadata}
    (ha : IsShort answer.symbol) :
    Desk.Short { d with metadata := (token, answer) :: d.metadata } := by
  intro p hp
  rcases List.mem_cons.mp hp with rfl | hp
  · exact ha
  · exact h p hp

theorem obeys_metadataOf {m : Market σ} (hm : m.Short) (books : Books) (token : Address) :
    Obeys Desk.Short (Gives fun answer => IsShort answer.symbol)
      (Desk.metadataOf m books token) := by
  intro d hd
  unfold Desk.metadataOf
  split
  next known hknown =>
    -- it has been asked before
    obtain ⟨p, hp, hpk⟩ : ∃ p ∈ d.metadata, p.2 = known := by
      rw [List.lookup_eq_some_iff] at hknown
      obtain ⟨l₁, l₂, hsplit, -⟩ := hknown
      exact ⟨(token, known), by rw [hsplit]; simp, rfl⟩
    exact ⟨hpk ▸ hd p hp, hd⟩
  next =>
    split
    next => exact ⟨trivial, hd⟩
    -- it has a row: its symbol has been read
    next row hrow =>
      have hshort := Books.isShort_of_find?_tokens hrow
      exact ⟨hshort, hd.remember hshort⟩
    next =>
      split
      -- the chain has answered
      next answer chain hanswer =>
        have hshort := hm token d.chain answer (congrArg Prod.fst hanswer)
        exact ⟨hshort, Desk.Short.remember (d := { d with chain }) hd hshort⟩
      next => exact ⟨trivial, hd⟩

theorem obeys_metadataAlong {m : Market σ} (hm : m.Short) (books : Books)
    (path : List Address) :
    Obeys Desk.Short (Gives fun tokens => tokens.map Prod.fst = path
        ∧ ∀ p ∈ tokens, IsShort p.2.symbol)
      (Desk.metadataAlong m books path) := by
  induction path with
  | nil => exact .pure ⟨rfl, nofun⟩
  | cons token path ih =>
    refine (obeys_metadataOf hm books token).bind_gives fun answer hanswer => ?_
    refine ih.bind_gives fun answers hanswers => .pure ⟨?_, ?_⟩
    · rw [List.map_cons, hanswers.1]
    · intro p hp
      rcases List.mem_cons.mp hp with rfl | hp
      · exact hanswer
      · exact hanswers.2 p hp

/-- Neither the factory nor the price has anything to do with what is remembered
of tokens. -/
theorem obeys_factoryOf (m : Market σ) (router : Address) :
    Obeys Desk.Short (Gives fun _ => True) (Desk.factoryOf m router) := by
  intro d hd
  unfold Desk.factoryOf
  split
  next => exact ⟨trivial, hd⟩
  next =>
    split
    next => exact ⟨trivial, hd⟩
    next => exact ⟨trivial, hd⟩

theorem obeys_ask {ε α : Type} (question : Asking σ ε α) :
    Obeys Desk.Short (Gives fun _ => True) (Desk.ask question) := by
  intro d hd
  refine ⟨?_, hd⟩
  show Gives _ (question d.chain).1
  cases (question d.chain).1 <;> trivial

theorem obeys_resolveSwap {m : Market σ} (hm : m.Short) (fee : Option Fee) (books : Books)
    (tx : Transaction) (router : Address) :
    Obeys Desk.Short (Gives (PricedSwap.Of tx)) (resolveSwap m fee books tx tx.sender router) := by
  have hcall : Gives (fun call : SwapCall =>
      call.path.getLast? = some call.tokenOut ∧ call.path.length < 2 ^ 32
        ∧ call.amountIn = tx.value)
      ((SwapCall.decode tx.input tx.value).mapError fun e => Setback.skip (.undecodable e)) := by
    cases h : SwapCall.decode tx.input tx.value with
    | error e => trivial
    | ok call => exact decode_eq_ok h
  -- one lemma for each question, in the order they are asked
  refine (Obeys.ofExcept hcall).bind_gives fun call hcall => ?_
  refine (obeys_factoryOf m router).withError_gives.bind_gives fun factory _ => ?_
  refine (obeys_metadataAlong hm books call.path).bind_gives fun tokens htokens => ?_
  cases tokens.getLast? with
  | none => exact .fail trivial
  | some last =>
    refine (obeys_ask _).withError_gives.bind_gives fun price _ => .pure ?_
    exact ⟨⟨htokens.1, hcall.1, hcall.2.1, htokens.2⟩, rfl, rfl, hcall.2.2⟩

theorem obeys_resolve {m : Market σ} (hm : m.Short) (exchanges : ExchangeSet)
    (settings : Settings) (books : Books) (funded : List Address) (tx : Transaction) :
    Obeys Desk.Short (Gives (Resolution.Of exchanges settings.minTransfer books funded tx))
      (resolve m exchanges settings books funded tx) := by
  unfold resolve
  rcases classOf_cases exchanges settings books funded tx with
    ⟨exchange, recipient, h, hfunder⟩ | ⟨⟨router, method, hfollowed, h⟩ | ⟨reason, h⟩, hfunder⟩
  · rw [h]
    refine .pure ⟨hfunder, ?_, nofun⟩
    rintro _ _ _ ⟨⟩
    rfl
  · rw [h]
    -- what has been found out is booked or skipped, but the desk is the same
    intro d hd
    have hswap := obeys_resolveSwap hm settings.fee books tx router d hd
    simp only
    split
    next swap d' hs =>
      rw [hs] at hswap
      refine ⟨⟨hfunder, nofun, ?_⟩, hswap.2⟩
      rintro _ ⟨⟩
      exact ⟨hswap.1, hfollowed⟩
    next reason d' hs =>
      rw [hs] at hswap
      exact ⟨⟨hfunder, nofun, nofun⟩, hswap.2⟩
    next error d' hs =>
      rw [hs] at hswap
      exact ⟨trivial, hswap.2⟩
  · rw [h]
    exact .pure ⟨hfunder, nofun, nofun⟩

/-- **Whatever the chain says, resolutions are what the transactions come to.** -/
theorem obeys_resolveAll {m : Market σ} (hm : m.Short) (exchanges : ExchangeSet)
    (settings : Settings) (books : Books) (funded : List Address)
    (txs : List Transaction) :
    Obeys Desk.Short (Gives (ResolutionsOf exchanges settings.minTransfer books funded txs))
      (resolveAll m exchanges settings books funded txs) := by
  induction txs generalizing funded with
  | nil => exact .pure .nil
  | cons tx txs ih =>
    refine (obeys_resolve hm exchanges settings books funded tx).bind_gives fun r hr => ?_
    exact (ih (r.funded ++ funded)).bind_gives fun rs hrs => .pure (.cons hr hrs)

/-! What a transaction comes to is sound. -/

theorem Resolution.Of.sound {exchanges : ExchangeSet} {minTransfer : Amount} {books : Books}
    {funded : List Address} {tx : Transaction} {r : Resolution}
    (h : r.Of exchanges minTransfer books funded tx) : r.Sound exchanges := by
  cases r with
  | transfer exchange recipient value =>
    have hfunder : tx.funder? exchanges minTransfer recipient = some exchange :=
      (h.funder recipient).trans (if_pos rfl)
    exact ⟨tx.sender, (Transaction.funder?_eq_some_iff.mp hfunder).2.2.2⟩
  | swap s => exact (h.swap rfl).1.sound
  | skipped reason => trivial
  | ignored reason => trivial

theorem ResolutionsOf.sound {exchanges : ExchangeSet} {minTransfer : Amount} {books : Books}
    {funded : List Address} {txs : List Transaction} {rs : List Resolution}
    (h : ResolutionsOf exchanges minTransfer books funded txs rs) :
    ∀ r ∈ rs, r.Sound exchanges := by
  induction h with
  | nil => exact nofun
  | cons hr _ ih =>
    intro r hmem
    rcases List.mem_cons.mp hmem with rfl | hmem
    · exact hr.sound
    · exact ih r hmem

section

variable {m : Market σ} (hm : m.Short) {e : Engine σ}

include hm

/-- Whatever has been resolved when a block begins is what its transactions come to. -/
theorem Engine.resolutions {txs : List Transaction} {rs : List Resolution} {desk : Desk σ}
    (h : resolveAll m e.exchanges e.settings e.store.handle.books [] txs
      ⟨e.chain, e.factories, [], []⟩ = (.ok rs, desk)) :
    ResolutionsOf e.exchanges e.settings.minTransfer e.store.handle.books [] txs rs := by
  have hresolutions := (obeys_resolveAll hm e.exchanges e.settings e.store.handle.books [] txs
    ⟨e.chain, e.factories, [], []⟩ nofun).1
  rw [h] at hresolutions
  exact hresolutions

variable {now : Int64} {batch : Batch} {outcomes : List Outcome} {rs : List Resolution}
  {desk : Desk σ} {booked : Books}

/-- What has been committed is what the transactions of the block came to. -/
theorem Committed.resolutions (h : Committed m now batch e outcomes rs desk booked) :
    ResolutionsOf e.exchanges e.settings.minTransfer e.store.handle.books []
      batch.transactions rs :=
  Engine.resolutions hm h.resolved

/-- What has been committed was sound. -/
theorem Committed.sound (h : Committed m now batch e outcomes rs desk booked) :
    ∀ r ∈ rs, r.Sound e.exchanges :=
  (h.resolutions hm).sound

end

end

/-! ## §5. A block to look at. -/

/-- An address by its first byte. -/
def shortAddress (n : UInt8) : Address := .ofPrefix [n]

/-- Every router has the same factory, every token the same name, and every pair
holds as much of the one token as of the other. -/
def evenMarket : Market Unit where
  factoryOf _ := pure (shortAddress 9)
  metadataOf _ := pure ⟨"T", 18⟩
  reservesOf _ _ _ := pure ⟨.clamp 1, .clamp 1⟩

theorem short_evenMarket : evenMarket.Short := by
  intro token w answer h
  obtain rfl := Except.ok.inj h
  decide

/-- The call data of a swap along a path. -/
def swapInput (path : List Address) : Bytes :=
  SwapMethod.exactEthForTokens.selector.toList ++ bigEndian 32 1 ++ bigEndian 32 128
    ++ bigEndian 32 0 ++ bigEndian 32 0 ++ bigEndian 32 path.length
    ++ path.flatMap fun token => List.replicate 12 0 ++ token.toList

/-- An exchange funds a wallet, and the wallet goes from token 4 to token 5 and
back again. -/
def roundTrip : Batch := ⟨.clamp 1, .zero, [
  ⟨.ofPrefix [1], shortAddress 1, some (shortAddress 2), oneEther, []⟩,
  ⟨.ofPrefix [2], shortAddress 2, some (shortAddress 3), oneEther,
    swapInput [shortAddress 4, shortAddress 5, shortAddress 4]⟩]⟩

/-- An engine on new books that knows one exchange. -/
def firstEngine : Engine Unit :=
  .new (.ofList [⟨"X", shortAddress 1⟩]) .default ⟨.new, false⟩ ()

end FundTrail
