/-
  FundTrail.Proofs.Engine.Quotation
  ─────────────────────────────────
  **WHAT A PRICE VOUCHES FOR.**

  A swap is resolved only if it has a price, and a price is asked for hop by hop.
  So whatever the chain says, the path of a resolved swap has a hop, goes through no
  zero address and never stays where it is; and the last token has so few decimals
  that a whole unit of it is an amount.

  What tokens say of themselves is remembered for the length of a block.  A chain may
  answer differently every time, but within a block it is taken at its first word:
  all swaps of the block have been told the same of a token, and where the books know
  the token, what they say.

  Main fact: `Committed.quoted`.
-/
import FundTrail.Proofs.Engine.Steady

namespace FundTrail

open FundTrail.Store

variable {σ : Type}

/-! ## §1. Prices. -/

/-- What is certain of a path and of the decimals of its last token, if there is a
price. -/
structure Payable (path : List Address) (decimals : UInt8) : Prop where
  long : 2 ≤ path.length
  nonzero : ∀ token ∈ path, token ≠ .zero
  /-- No token is changed into itself. -/
  distinct : ∀ hop ∈ hops path, hop.1 ≠ hop.2
  decimals : decimals.toNat ≤ 77

/-- A whole unit of a token is an amount only if there are not too many decimals. -/
theorem decimals_of_unit? {decimals : UInt8} {unit : Amount}
    (h : Token.unit? decimals = some unit) : decimals.toNat ≤ 77 := by
  have hunit : 10 ^ decimals.toNat < 2 ^ 256 := by
    rw [← Word.ofNat?_eq_some_iff.mp h]
    exact unit.toNat_lt
  refine Nat.le_of_not_lt fun hmany => ?_
  have hpow : 10 ^ 78 ≤ 10 ^ decimals.toNat := Nat.pow_le_pow_right (by decide) hmany
  have htop : 2 ^ 256 < 10 ^ 78 := by decide
  omega

theorem orient_eq_ok {a b : Address} {raw : PairReserves} {r : Reserves}
    (h : orient a b raw = .ok r) : a ≠ .zero ∧ b ≠ .zero ∧ a ≠ b := by
  unfold orient at h
  split at h
  next => exact nomatch h
  next hzero =>
    split at h
    next => exact nomatch h
    next hsame => exact ⟨fun ha => hzero (.inl ha), fun hb => hzero (.inr hb), hsame⟩

/-- Every token of a path that has a hop is on one. -/
theorem forall_mem_of_hops {P : Address → Prop} {path : List Address} (hlong : 2 ≤ path.length)
    (h : ∀ hop ∈ hops path, P hop.1 ∧ P hop.2) : ∀ token ∈ path, P token := by
  induction path with
  | nil => exact nofun
  | cons first path ih =>
    cases path with
    | nil => exact absurd hlong (Nat.not_succ_le_self 1)
    | cons second path =>
      obtain ⟨hfirst, hsecond⟩ := h (first, second) List.mem_cons_self
      intro token htoken
      rcases List.mem_cons.mp htoken with rfl | htoken
      · exact hfirst
      · cases path with
        | nil =>
          obtain rfl := List.mem_singleton.mp htoken
          exact hsecond
        | cons third path =>
          exact ih (by simp) (fun hop hhop => h hop (List.mem_cons_of_mem _ hhop)) token htoken

section

open Asking

/-- Reserves are given for hops between two different tokens. -/
theorem gives_reservesOfHops (m : Market σ) (factory : Address) (pairs : List (Address × Address)) :
    Obeys (fun _ => True)
      (Gives fun _ => ∀ hop ∈ pairs, hop.1 ≠ .zero ∧ hop.2 ≠ .zero ∧ hop.1 ≠ hop.2)
      (reservesOfHops m factory pairs) := by
  induction pairs with
  | nil => exact .pure nofun
  | cons pair pairs ih =>
    have hraw : Obeys (fun _ => True) (Gives fun _ : PairReserves => True)
        ((m.reservesOf factory pair.1 pair.2).withError PriceError.chain) := by
      refine Obeys.withError_gives fun w _ => ⟨?_, trivial⟩
      cases (m.reservesOf factory pair.1 pair.2 w).1 <;> trivial
    refine hraw.bind_gives fun raw _ => ?_
    have horient : Obeys (fun _ : σ => True)
        (Gives fun _ => pair.1 ≠ .zero ∧ pair.2 ≠ .zero ∧ pair.1 ≠ pair.2)
        (Asking.ofExcept (orient pair.1 pair.2 raw)) := by
      refine .ofExcept ?_
      cases h : orient pair.1 pair.2 raw with
      | error e => trivial
      | ok r => exact orient_eq_ok h
    refine horient.bind_gives fun r hpair => ?_
    refine ih.bind_gives fun rs hpairs => .pure fun hop hhop => ?_
    rcases List.mem_cons.mp hhop with rfl | hhop
    · exact hpair
    · exact hpairs hop hhop

/-- **There is a price only where one can be paid.** -/
theorem gives_pathPrice (m : Market σ) (factory : Address) (path : List Address)
    (decimals : UInt8) (fee : Option Fee) :
    Obeys (fun _ => True) (Gives fun _ => Payable path decimals)
      (pathPrice m factory path decimals fee) := by
  have halong : Obeys (fun _ => True)
      (Gives fun _ => 2 ≤ path.length
        ∧ ∀ hop ∈ hops path, hop.1 ≠ .zero ∧ hop.2 ≠ .zero ∧ hop.1 ≠ hop.2)
      (reservesAlong m factory path) := by
    unfold reservesAlong
    split
    next => exact .fail trivial
    next hlong =>
      exact (gives_reservesOfHops m factory (hops path)).imp fun r hr =>
        hr.imp fun _ h => ⟨Nat.le_of_not_lt hlong, h⟩
  unfold pathPrice
  split
  next => exact .fail trivial
  next unit hunit =>
    refine halong.bind_gives fun rs hpath => ?_
    have hpayable : Payable path decimals :=
      ⟨hpath.1, forall_mem_of_hops hpath.1 fun hop hhop =>
          ⟨(hpath.2 hop hhop).1, (hpath.2 hop hhop).2.1⟩,
        fun hop hhop => (hpath.2 hop hhop).2.2, decimals_of_unit? hunit⟩
    have hall : ∀ {x : Except PriceError Amount},
        Obeys (fun _ : σ => True) (Gives fun _ => Payable path decimals) (Asking.ofExcept x) := by
      intro x
      refine .ofExcept ?_
      cases x with
      | error e => trivial
      | ok value => exact hpayable
    refine Obeys.bind_gives (hall (x := price unit rs)) fun value _ => ?_
    split
    next => exact hall
    next => exact .pure hpayable

end

/-! ## §2. What a desk has been told. -/

/-- What is at hand about a token. -/
def Desk.Knows (d : Desk σ) (token : Address) (known : Metadata) : Prop :=
  d.metadata.lookup token = some known

/-- What is at hand about a token is what the books say, if they have it. -/
def Desk.Faithful (books : Books) (d : Desk σ) : Prop :=
  ∀ token row known, books.find? .tokens token = .ok (some row) → d.Knows token known →
    known = ⟨row.symbol, row.decimals⟩

/-- From `d` to `d'` nothing about tokens has been forgotten, and nothing has been put
on the desk that contradicts the books. -/
structure Desk.Leads (books : Books) (d d' : Desk σ) : Prop where
  recalled : ∀ token known, d.Knows token known → d'.Knows token known
  faithful : d.Faithful books → d'.Faithful books

namespace Desk.Leads

variable {books : Books} {d d' d'' : Desk σ}

/-- Nothing about tokens has happened. -/
theorem of_metadata (h : d'.metadata = d.metadata) : Desk.Leads books d d' := by
  constructor
  · intro token known hknown
    exact (congrArg (List.lookup token) h).trans hknown
  · intro hd token row known hrow hknown
    exact hd token row known hrow ((congrArg (List.lookup token) h).symm.trans hknown)

theorem trans (h : Desk.Leads books d d') (g : Desk.Leads books d' d'') :
    Desk.Leads books d d'' :=
  ⟨fun token known hknown => g.recalled token known (h.recalled token known hknown),
    fun hd => g.faithful (h.faithful hd)⟩

/-- A token of which nothing was at hand has been asked. -/
theorem remember {token : Address} {known : Metadata} (hnew : d.metadata.lookup token = none)
    (hbooks : ∀ row, books.find? .tokens token = .ok (some row) →
      known = ⟨row.symbol, row.decimals⟩) :
    Desk.Leads books d { d with metadata := (token, known) :: d.metadata } := by
  have hlookup : ∀ other, List.lookup other ((token, known) :: d.metadata)
      = if other = token then some known else d.metadata.lookup other := by
    intro other
    rw [List.lookup_cons]
    by_cases hother : other = token
    · rw [if_pos hother, beq_iff_eq.mpr hother]
    · rw [if_neg hother, beq_eq_false_iff_ne.mpr hother]
  constructor
  · intro other answer hanswer
    have hother : other ≠ token := by
      rintro rfl
      exact nomatch hnew.symm.trans hanswer
    exact (hlookup other).trans ((if_neg hother).trans hanswer)
  · intro hd other row answer hrow hanswer
    have hanswer := (hlookup other).symm.trans hanswer
    by_cases hother : other = token
    · subst hother
      rw [if_pos rfl] at hanswer
      rw [← Option.some.inj hanswer]
      exact hbooks row hrow
    · rw [if_neg hother] at hanswer
      exact hd other row answer hrow hanswer

end Desk.Leads

/-- Whatever the question comes to, nothing about tokens is forgotten; and its answer
goes with what is at hand then. -/
def Asking.Learns {ε α : Type} (books : Books) (Q : Desk σ → α → Prop)
    (x : Asking (Desk σ) ε α) : Prop :=
  ∀ d, Gives (Q (x d).2) (x d).1 ∧ Desk.Leads books d (x d).2

namespace Asking.Learns

variable {ε ε' α β : Type} {books : Books} {Q : Desk σ → α → Prop} {x : Asking (Desk σ) ε α}

theorem pure {a : α} (h : ∀ d, Q d a) :
    Learns books Q (Pure.pure a : Asking (Desk σ) ε α) :=
  fun d => ⟨h d, .of_metadata rfl⟩

theorem fail {e : ε} : Learns books Q (Asking.fail e) :=
  fun _ => ⟨trivial, .of_metadata rfl⟩

theorem ofExcept {y : Except ε α} (h : ∀ d, Gives (Q d) y) :
    Learns books Q (Asking.ofExcept y) :=
  fun d => ⟨h d, .of_metadata rfl⟩

theorem withError {f : ε → ε'} (h : Learns books Q x) : Learns books Q (x.withError f) := by
  intro d
  have hx := h d
  unfold Asking.withError
  generalize x d = answered at hx ⊢
  obtain ⟨e | a, d'⟩ := answered
  · exact hx
  · exact hx

/-- **A question that follows on an answer** finds at hand what has gone with it. -/
theorem bind {f : α → Asking (Desk σ) ε β} {Q' : Desk σ → β → Prop} (h : Learns books Q x)
    (hlasts : ∀ {d d' a}, Desk.Leads books d d' → Q d a → Q d' a)
    (hf : ∀ a, Learns books (fun d b => Q d a → Q' d b) (f a)) :
    Learns books Q' (x >>= f) := by
  intro d
  have hx := h d
  show Gives (Q' (x.andThen f d).2) (x.andThen f d).1 ∧ Desk.Leads books d (x.andThen f d).2
  unfold Asking.andThen
  generalize x d = answered at hx ⊢
  obtain ⟨e | a, d'⟩ := answered
  · exact ⟨trivial, hx.2⟩
  · -- what has gone with the first answer is at hand at the end as well
    obtain ⟨hrest, hleads⟩ := hf a d'
    exact ⟨hrest.imp fun b hb => hb (hlasts hleads hx.1), hx.2.trans hleads⟩

/-- What the chain is asked beside tokens has nothing to do with them. -/
theorem ask {question : Asking σ ε α} {P : α → Prop}
    (h : Obeys (fun _ => True) (Gives P) question) :
    Learns books (fun _ a => P a) (Desk.ask question) :=
  fun d => ⟨(h d.chain trivial).1, .of_metadata rfl⟩

end Asking.Learns

/-! ## §3. Quoted swaps. -/

/-- What is certain of a swap that has been classified and priced. -/
structure PricedSwap.Quoted (exchanges : ExchangeSet) (minTransfer : Amount)
    (swap : PricedSwap) : Prop where
  outside : exchanges.contains swap.wallet = false
  enough : minTransfer ≤ swap.call.amountIn
  payable : ∃ last, swap.tokens.getLast? = some last ∧ Payable swap.call.path last.2.decimals

section

variable {exchanges : ExchangeSet} {settings : Settings} {books : Books} {funded : List Address}
  {tx : Transaction} {wallet router : Address} {method : SwapMethod}
  (h : classOf exchanges settings books funded tx = .swapCall wallet router method)

include h

/-- A swap call looks like one by itself. -/
theorem judge_of_swapCall :
    judge exchanges settings.minTransfer tx = .swapIfTracked wallet router method := by
  rw [classOf_eq] at h
  rcases judge_cases exchanges settings.minTransfer tx with
    ⟨_, _, hj, -⟩ | ⟨⟨_, hj⟩ | ⟨_, _, hj⟩, -⟩
  · rw [hj] at h
    exact nomatch h
  · rw [hj] at h
    exact nomatch h
  · rw [hj] at h ⊢
    simp only at h
    split at h
    next =>
      obtain ⟨rfl, rfl, rfl⟩ := Classification.swapCall.inj h
      rfl
    next => exact nomatch h

/-- It is made from outside of the exchanges, and for enough. -/
theorem classOf_eq_swapCall :
    wallet = tx.sender ∧ settings.minTransfer ≤ tx.value
      ∧ exchanges.contains tx.sender = false := by
  obtain ⟨rfl, hcall⟩ := judge_eq_swapIfTracked_iff.mp (judge_of_swapCall h)
  exact ⟨rfl, hcall.enough, hcall.sender⟩

end

section

open Asking

variable (m : Market σ) (books : Books)

theorem learns_metadataOf (token : Address) :
    Learns books (fun d known => d.Knows token known) (Desk.metadataOf m books token) := by
  intro d
  unfold Desk.metadataOf
  split
  next known hknown => exact ⟨hknown, .of_metadata rfl⟩
  next hnew =>
    split
    next => exact ⟨trivial, .of_metadata rfl⟩
    next row hrow =>
      -- the books know the token
      refine ⟨List.lookup_cons_self, .remember hnew fun row' hrow' => ?_⟩
      obtain rfl : row = row' := Books.find?_unique hrow hrow'
      rfl
    next hnone =>
      split
      next answer chain _ =>
        -- nobody does, and the chain has answered
        have hasked : Desk.Leads books d { d with chain } := .of_metadata rfl
        have hremembered : Desk.Leads books { d with chain }
            { d with chain, metadata := (token, answer) :: d.metadata } :=
          .remember hnew fun row hrow => nomatch Except.ok.inj (hnone.symm.trans hrow)
        exact ⟨List.lookup_cons_self, hasked.trans hremembered⟩
      next => exact ⟨trivial, .of_metadata rfl⟩

theorem learns_metadataAlong (path : List Address) :
    Learns books (fun d tokens => tokens.map Prod.fst = path ∧ ∀ p ∈ tokens, d.Knows p.1 p.2)
      (Desk.metadataAlong m books path) := by
  induction path with
  | nil => exact .pure fun _ => ⟨rfl, nofun⟩
  | cons token path ih =>
    refine (learns_metadataOf m books token).bind (fun h hknown => h.recalled _ _ hknown)
      fun answer => ?_
    refine ih.bind (fun h hanswers => ⟨hanswers.1, fun p hp => h.recalled _ _ (hanswers.2 p hp)⟩)
      fun answers => .pure fun d hanswers hanswer => ⟨?_, fun p hp => ?_⟩
    · rw [List.map_cons, hanswers.1]
    · rcases List.mem_cons.mp hp with rfl | hp
      · exact hanswer
      · exact hanswers.2 p hp

theorem learns_factoryOf (router : Address) :
    Learns books (fun _ _ => True) (Desk.factoryOf m router) := by
  intro d
  unfold Desk.factoryOf
  split
  next => exact ⟨trivial, .of_metadata rfl⟩
  next =>
    split
    next => exact ⟨trivial, .of_metadata rfl⟩
    next => exact ⟨trivial, .of_metadata rfl⟩

/-- What goes with a swap that has been found out. -/
theorem learns_resolveSwap (fee : Option Fee) (tx : Transaction) (wallet router : Address) :
    Learns books (fun d s => s.wallet = wallet ∧ s.call.amountIn = tx.value
        ∧ (∃ last, s.tokens.getLast? = some last ∧ Payable s.call.path last.2.decimals)
        ∧ ∀ p ∈ s.tokens, d.Knows p.1 p.2)
      (resolveSwap m fee books tx wallet router) := by
  unfold resolveSwap
  have hcall : Learns books (fun (_ : Desk σ) (call : SwapCall) => call.amountIn = tx.value)
      (Asking.ofExcept
        ((SwapCall.decode tx.input tx.value).mapError fun e => Setback.skip (.undecodable e))) := by
    refine .ofExcept fun _ => ?_
    cases h : SwapCall.decode tx.input tx.value with
    | error e => trivial
    | ok call => exact (decode_eq_ok h).2.2
  refine hcall.bind (fun _ h => h) fun call => ?_
  refine (learns_factoryOf m books router).withError.bind (fun _ h => h) fun factory => ?_
  refine (learns_metadataAlong m books call.path).bind
    (fun h htokens => ⟨htokens.1, fun p hp => h.recalled _ _ (htokens.2 p hp)⟩) fun tokens => ?_
  cases hlast : tokens.getLast? with
  | none => exact .fail
  | some last =>
    have hprice := gives_pathPrice m factory call.path last.2.decimals fee
    refine (Learns.ask hprice).withError.bind (fun _ h => h) fun price => .pure ?_
    exact fun d hpayable htokens _ hvalue => ⟨rfl, hvalue, ⟨last, hlast, hpayable⟩, htokens.2⟩

variable (exchanges : ExchangeSet) (settings : Settings)

/-- A swap has been quoted, and its tokens come with what is at hand about them. -/
def Resolution.Learned (minTransfer : Amount) (d : Desk σ) (r : Resolution) : Prop :=
  ∀ s, r = .swap s → s.Quoted exchanges minTransfer ∧ ∀ p ∈ s.tokens, d.Knows p.1 p.2

theorem Resolution.Learned.leads {exchanges : ExchangeSet} {books : Books} {minTransfer : Amount}
    {d d' : Desk σ} {r : Resolution} (h : r.Learned exchanges minTransfer d)
    (hleads : Desk.Leads books d d') : r.Learned exchanges minTransfer d' :=
  fun s hs => ⟨(h s hs).1, fun p hp => hleads.recalled _ _ ((h s hs).2 p hp)⟩

theorem learns_resolve (funded : List Address) (tx : Transaction) :
    Learns books (fun d r => r.Learned exchanges settings.minTransfer d)
      (resolve m exchanges settings books funded tx) := by
  unfold resolve
  split
  next => exact .pure fun _ => nofun
  next => exact .pure fun _ => nofun
  next wallet router method hclass =>
    obtain ⟨rfl, henough, houtside⟩ := classOf_eq_swapCall hclass
    intro d
    have hswap := learns_resolveSwap m books settings.fee tx tx.sender router d
    simp only
    split
    next swap d' hs =>
      rw [hs] at hswap
      obtain ⟨⟨hwallet, hvalue, hpayable, htokens⟩, hleads⟩ := hswap
      refine ⟨fun s hsame => ?_, hleads⟩
      obtain rfl := Resolution.swap.inj hsame
      exact ⟨⟨hwallet ▸ houtside, hvalue ▸ henough, hpayable⟩, htokens⟩
    next reason d' hs =>
      rw [hs] at hswap
      exact ⟨nofun, hswap.2.trans (.of_metadata rfl)⟩
    next error d' hs =>
      rw [hs] at hswap
      exact ⟨trivial, hswap.2⟩

/-- **All resolutions of a block go with what is at hand at its end.** -/
theorem learns_resolveAll (funded : List Address) (txs : List Transaction) :
    Learns books (fun d rs => ∀ r ∈ rs, r.Learned exchanges settings.minTransfer d)
      (resolveAll m exchanges settings books funded txs) := by
  induction txs generalizing funded with
  | nil => exact .pure fun _ => nofun
  | cons tx txs ih =>
    refine (learns_resolve m books exchanges settings funded tx).bind
      (fun h hr => hr.leads h) fun r => ?_
    refine (ih (r.funded ++ funded)).bind (fun h hrs r hr => (hrs r hr).leads h)
      fun rs => .pure fun d hrs hr r' hr' => ?_
    rcases List.mem_cons.mp hr' with rfl | hr'
    · exact hr
    · exact hrs r' hr'

end

/-- The answers of a chain that says of tokens what is at hand. -/
def Desk.answers (d : Desk σ) : Answers where
  factoryOf _ := .error (.provider "not asked")
  metadataOf token :=
    match d.metadata.lookup token with
    | some known => .ok known
    | none => .error (.provider "not asked")
  reservesOf _ _ _ := .error (.provider "not asked")

/-- What is at hand is what is said of a token: by the books, or else by the desk. -/
theorem Desk.Faithful.said {d : Desk σ} {books : Books} (h : d.Faithful books) {token : Address}
    {known : Metadata} (hknown : d.Knows token known) : d.answers.said books token = .ok known := by
  unfold Answers.said
  split
  next row hrow => rw [h token row known hrow hknown]
  next =>
    show (match d.metadata.lookup token with | some known => _ | none => _) = _
    rw [show d.metadata.lookup token = some known from hknown]

/-- **The swaps of a block are quoted**, and of each token all of them have been told
the same. -/
theorem Committed.quoted {m : Market σ} {e : Engine σ} {now : Int64} {batch : Batch}
    {outcomes : List Outcome} {rs : List Resolution} {desk : Desk σ} {booked : Books}
    (h : Committed m now batch e outcomes rs desk booked) :
    ∃ a : Answers, ∀ swap, .swap swap ∈ rs →
      swap.Quoted e.exchanges e.settings.minTransfer
        ∧ ∀ p ∈ swap.tokens, a.said e.store.handle.books p.1 = .ok p.2 := by
  obtain ⟨hlearned, hleads⟩ := learns_resolveAll m e.store.handle.books e.exchanges e.settings []
    batch.transactions ⟨e.chain, e.factories, [], []⟩
  rw [h.resolved] at hlearned hleads
  have hfaithful : desk.Faithful e.store.handle.books := hleads.faithful nofun
  refine ⟨desk.answers, fun swap hswap => ?_⟩
  obtain ⟨hquoted, htokens⟩ := hlearned (.swap swap) hswap swap rfl
  exact ⟨hquoted, fun p hp => hfaithful.said (htokens p hp)⟩

end FundTrail
